import Logistics.MapGraph
import Logistics.NodeOrderTheorem

namespace Logistics.RestAnswers

open GraphBuilder FulfillmentApi JsonText List Option

variable (parse : String → Option Value)

def parseFlowRequestJson (jsonBody : String) : Except String (String × String) :=
  match parse jsonBody with
  | none => .error "Invalid JSON format"
  | some root =>
    match root.item "source", root.item "sink" with
    | some (.string source), some (.string sink) => .ok (source, sink)
    | _, _ => .error "Missing or invalid 'source' or 'sink' fields"

def isBlankJsonBody (jsonBody : String) : Bool := jsonBody.toList.all (· ∈ [' ', '\t', '\r', '\n'])

def parseCircuitRequestJson (jsonBody : String) : Except String String :=
  if isBlankJsonBody jsonBody then .ok ""
  else
    match parse jsonBody with
    | none => .error "Invalid JSON format"
    | some (.object fields) =>
      match (.object fields : Value).item "start" with
      | none => .ok ""
      | some (.string start) => .ok start
      | some _ => .error "Invalid 'start' field"
    | some _ => .error "Expected a JSON object"

structure Response where
  status : Nat
  body : List Char

def respond {α : Type} (print : α → List Char) : Except String α → Response
  | .ok result => ⟨200, print result⟩
  | .error what => ⟨400, "\x7b\"status\":\"error\",\"message\":\"".toList ++ (what.toList ++ "\"\x7d".toList)⟩

def quoted (id : String) : List Char := '"' :: (id.toList ++ ['"'])

def acceptedIds (ids : List String) : List Char := '[' :: (", ".toList.intercalate (ids.map quoted) ++ [']'])

def mapJson (parsed : MapParseResult) : List Char :=
  "\x7b\"status\":\"ok\",\"accepted\":".toList ++ ((toString parsed.nodes.length).toList ++ (",\"discarded\":".toList ++
    ((toString parsed.totalDiscarded).toList ++ (",\"matrix_size\":".toList ++
    ((toString (buildAdjacencyMatrix parsed.nodes).size).toList ++ (",\"nodes\":".toList ++
    (acceptedIds (parsed.nodes.map MapNode.nodeId) ++ ['\x7d'])))))))

def postMap (body : String) : Response := respond mapJson (parseMapJson parse body)

structure Measured where
  executionTimeMs : ℚ
  useOpenmp : Bool
  timestamp : String

/- How cJSON prints a number. -/
variable (printNumber : ℚ → NumberToken) (measured : Measured) (graph : GraphData)

def flowDocument (flow : FlowResponse) : Doc NumberToken :=
  .object [("status", .string "ok"), ("source", .string flow.source), ("sink", .string flow.sink),
    ("node_count", .number (.ofNat flow.nodeCount)), ("max_flow", .number (printNumber flow.maxFlow)),
    ("execution_time_ms", .number (printNumber measured.executionTimeMs)), ("use_openmp", .bool measured.useOpenmp),
    ("timestamp", .string measured.timestamp)]

def buildFlowResponseJson (flow : FlowResponse) : List Char := printUnformatted (flowDocument printNumber measured flow)

def circuitDocument (found : CircuitResponse) : Doc NumberToken :=
  .object [("status", .string "ok"), ("has_circuit", .bool found.hasCircuit),
    ("node_count", .number (.ofNat found.nodeCount)),
    ("execution_time_ms", .number (printNumber measured.executionTimeMs)), ("use_openmp", .bool measured.useOpenmp),
    ("timestamp", .string measured.timestamp),
    ("circuits", .array (found.circuits.map fun circuit => .array (circuit.map .string)))]

def buildCircuitResponseJson (found : CircuitResponse) : List Char :=
  printUnformatted (circuitDocument printNumber measured found)

def postFulfillmentFlow (body : String) : Response :=
  respond (buildFlowResponseJson printNumber measured)
    ((parseFlowRequestJson parse body).bind fun req => fulfillmentFlow graph req.1 req.2)

def postFulfillmentCircuit (body : String) : Response :=
  respond (buildCircuitResponseJson printNumber measured)
    ((parseCircuitRequestJson parse body).bind (fulfillmentCircuit graph))

def mapDocument (parsed : MapParseResult) : Doc NumberToken :=
  .object [("status", .string "ok"), ("accepted", .number (.ofNat parsed.nodes.length)),
    ("discarded", .number (.ofNat parsed.totalDiscarded)),
    ("matrix_size", .number (.ofNat (buildAdjacencyMatrix parsed.nodes).size)),
    ("nodes", .array ((parsed.nodes.map MapNode.nodeId).map .string))]

def errorDocument (what : String) : Doc NumberToken := .object [("status", .string "error"), ("message", .string what)]

/-- The body is a well-formed document, and it reads as the one that is meant. -/
def Answers {α : Type} (document : α → Doc NumberToken) (response : Response) : Except String α → Prop
  | .ok result => response.status = 200 ∧ readDocument response.body = some (document result)
  | .error what => response.status = 400 ∧ readDocument response.body = some (errorDocument what)

variable {text : String} {depth fuel : Nat} {rest tail : List Char}

theorem readValue_quoted_iff : readValue (N := NumberToken) (depth + 1) (quoted text ++ rest) =
    some (.string text, tail) ↔ Unescaped text ∧ rest = tail := by
  rw [quoted, cons_append, readValue_quote, append_assoc, singleton_append]
  refine Iff.trans ?_ readChars_raw_iff
  constructor
  · intro h
    obtain ⟨r, hr, he⟩ := map_eq_some_iff.mp h
    cases he
    simpa using hr
  · intro h
    rw [h, map_some, String.ofList_toList]

theorem readSeq_quoted_iff (depth : Nat) (id : String) {ids : List String} (hfuel : ids.length < fuel) :
    readSeq (readValue (N := NumberToken) (depth + 1)) ']' fuel
      (", ".toList.intercalate ((id :: ids).map quoted) ++ ']' :: rest) = some ((id :: ids).map .string, tail) ↔
      (∀ id' ∈ id :: ids, Unescaped id') ∧ rest = tail := by
  induction ids generalizing id fuel with
  | nil =>
    obtain ⟨fuel, rfl⟩ := Nat.exists_eq_add_one.mpr hfuel
    rw [map_singleton, intercalate_singleton, map_singleton, forall_mem_singleton]
    constructor
    · intro h
      obtain ⟨⟨_, _⟩, hr, he⟩ := head?_readSeq h
      cases he
      have hid := (readValue_quoted_iff.mp hr).1
      rw [readSeq_last (by decide) (readValue_quoted_iff.mpr ⟨hid, rfl⟩)] at h
      cases h
      exact ⟨hid, rfl⟩
    · rintro ⟨hid, rfl⟩
      exact readSeq_last (by decide) (readValue_quoted_iff.mpr ⟨hid, rfl⟩)
  | cons next ids ih =>
    obtain ⟨fuel, rfl⟩ := Nat.exists_eq_add_one.mpr (Nat.zero_lt_of_lt hfuel)
    have hblank (text : List Char) : readSeq (readValue (N := NumberToken) (depth + 1)) ']' fuel (' ' :: text) =
        readSeq (readValue (depth + 1)) ']' fuel text := by
      cases fuel with
      | zero => rfl
      | succ fuel => rfl
    rw [forall_mem_cons, and_assoc, ← ih next (Nat.lt_of_succ_lt_succ hfuel), map_cons, map_cons,
      intercalate_cons_cons, append_assoc, append_assoc]
    change readSeq _ _ _ (quoted id ++ ',' :: ' ' :: _) = _ ↔ _
    constructor
    · intro h
      obtain ⟨⟨_, _⟩, hr, he⟩ := head?_readSeq h
      cases he
      have hid := (readValue_quoted_iff.mp hr).1
      rw [readSeq_cons (by decide) (readValue_quoted_iff.mpr ⟨hid, rfl⟩), hblank] at h
      obtain ⟨⟨_, _⟩, hs, he⟩ := map_eq_some_iff.mp h
      cases he
      exact ⟨hid, hs⟩
    · rintro ⟨hid, h⟩
      rw [readSeq_cons (by decide) (readValue_quoted_iff.mpr ⟨hid, rfl⟩), hblank]
      exact map_eq_some_iff.mpr ⟨_, h, rfl⟩

theorem readValue_acceptedIds_iff (ids : List String) :
    readValue (N := NumberToken) (depth + 2) (acceptedIds ids ++ rest) = some (.array (ids.map .string), tail) ↔
      (∀ id ∈ ids, Unescaped id) ∧ rest = tail := by
  rw [acceptedIds, cons_append, readValue_bracket, append_assoc, singleton_append]
  cases ids with
  | nil =>
    rw [map_nil, intercalate_nil, nil_append, readList, expect_eq (by decide), if_pos rfl]
    simp
  | cons id ids =>
    have hnone : expect ']' (", ".toList.intercalate ((id :: ids).map quoted) ++ ']' :: rest) = none := by
      cases ids <;> rfl
    have hlength : ids.length < (", ".toList.intercalate ((id :: ids).map quoted) ++ ']' :: rest).length := by
      have hids := length_le_intercalate (by decide : 0 < ", ".toList.length) ((id :: ids).map quoted)
      rw [length_map, length_cons] at hids
      rw [length_append, length_cons]
      omega
    simp only [readList, hnone]
    refine Iff.trans ?_ (readSeq_quoted_iff depth id hlength)
    constructor
    · intro h
      obtain ⟨⟨_, _⟩, hs, he⟩ := map_eq_some_iff.mp h
      cases he
      exact hs
    · intro h
      rw [h, map_some]

def fieldText (field : String × Doc NumberToken) : List Char := printString field.1 ++ ':' :: printUnformatted field.2

theorem readSeq_fields {fields : List (String × Doc NumberToken)} (h : ∀ f ∈ fields, Readable depth f.2)
    (rest : List Char) : readSeq (readField (readValue depth)) '\x7d' (fields.length + fuel)
      (fields.flatMap (fun f => fieldText f ++ [',']) ++ rest) =
      (readSeq (readField (readValue depth)) '\x7d' fuel rest).map fun s => (fields ++ s.1, s.2) := by
  induction fields with
  | nil => simp
  | cons f fields ih =>
    obtain ⟨hf, h⟩ := forall_mem_cons.mp h
    rw [flatMap_cons, append_assoc, append_assoc, singleton_append, length_cons,
      Nat.add_right_comm, fieldText, readSeq_cons (by decide : '\x7d' ≠ ',')
        (readField_print hf (stops_cons (by decide : isNumeric ',' = false))), ih h, Option.map_map]
    rfl

theorem readField_key (key : String) (value : List Char) :
    readField (readValue (N := NumberToken) depth) (printString key ++ ':' :: value) =
      (readValue depth value).map fun r => ((key, r.1), r.2) := by
  rw [readField, printString, cons_append, cons_append, expect_eq (by decide), if_pos rfl, bind_some,
    append_assoc, singleton_append, readChars_flatMap, bind_some, expect_eq (by decide), if_pos rfl,
    bind_some, String.ofList_toList]

/-- The last field of an object is the one that is meant exactly when its value is. -/
theorem readSeq_last_iff {key : String} {value : List Char} {tree : Doc NumberToken}
    (htail : ∀ tail, readValue depth (value ++ ['\x7d']) = some (tree, tail) → tail = ['\x7d']) :
    readSeq (readField (readValue depth)) '\x7d' (fuel + 1) (printString key ++ ':' :: (value ++ ['\x7d'])) =
      some ([(key, tree)], rest) ↔ readValue depth (value ++ ['\x7d']) = some (tree, ['\x7d']) ∧ rest = [] := by
  have hlast (h : readValue depth (value ++ ['\x7d']) = some (tree, ['\x7d'])) :
      readSeq (readField (readValue depth)) '\x7d' (fuel + 1) (printString key ++ ':' :: (value ++ ['\x7d'])) =
        some ([(key, tree)], []) := by
    rw [readSeq, readField_key, h, map_some, bind_some, expect_eq (by decide), if_pos rfl]
  constructor
  · intro h
    obtain ⟨⟨_, after⟩, hr, he⟩ := head?_readSeq h
    cases he
    rw [readField_key] at hr
    obtain ⟨⟨_, _⟩, hs, he⟩ := map_eq_some_iff.mp hr
    cases he
    have hvalue := htail _ hs ▸ hs
    cases (hlast hvalue).symm.trans h
    exact ⟨hvalue, rfl⟩
  · rintro ⟨h, rfl⟩
    exact hlast h

theorem readDocument_object_iff {fields : List (String × Doc NumberToken)} (h : ∀ f ∈ fields, Readable 999 f.2)
    {key : String} {value : List Char} {tree : Doc NumberToken}
    (htail : ∀ tail, readValue 999 (value ++ ['\x7d']) = some (tree, tail) → tail = ['\x7d']) :
    readDocument ('\x7b' :: (fields.flatMap (fun f => fieldText f ++ [',']) ++
      (printString key ++ ':' :: (value ++ ['\x7d'])))) = some (.object (fields ++ [(key, tree)])) ↔
      readValue 999 (value ++ ['\x7d']) = some (tree, ['\x7d']) := by
  have hnone : expect '\x7d' (fields.flatMap (fun f => fieldText f ++ [',']) ++
      (printString key ++ ':' :: (value ++ ['\x7d']))) = none := by
    cases fields <;> simp [fieldText, printString, expect, isBlank]
  have hlength : fields.length ≤ (fields.flatMap fun f => fieldText f ++ [',']).length := by
    simp [length_flatMap]
  obtain ⟨fuel, hfuel⟩ : ∃ fuel, (fields.flatMap (fun f => fieldText f ++ [',']) ++
      (printString key ++ ':' :: (value ++ ['\x7d']))).length = fields.length + (fuel + 1) :=
    Nat.exists_eq_add_of_lt (by simp only [length_append, length_cons]; omega)
  rw [readDocument, show nestingLimit = 999 + 1 from rfl, readValue_brace]
  simp only [readList, hnone]
  rw [hfuel, readSeq_fields h]
  constructor
  · intro h
    obtain ⟨r, hr, h⟩ := bind_eq_some_iff.mp h
    obtain ⟨⟨_, _⟩, hs, rfl⟩ := map_eq_some_iff.mp hr
    obtain ⟨⟨last, rest⟩, hlast, he⟩ := map_eq_some_iff.mp hs
    cases he
    split at h
    · have hlast' : last = [(key, tree)] := append_cancel_left (Doc.object.inj (some.inj h))
      rw [hlast'] at hlast
      exact ((readSeq_last_iff htail).mp hlast).1
    · cases h
  · intro h
    rw [(readSeq_last_iff htail).mpr ⟨h, rfl⟩]
    rfl

theorem readDocument_error_iff :
    readDocument ("\x7b\"status\":\"error\",\"message\":\"".toList ++ (text.toList ++ "\"\x7d".toList)) =
      some (errorDocument text) ↔ Unescaped text := by
  have htext : "\x7b\"status\":\"error\",\"message\":\"".toList ++ (text.toList ++ "\"\x7d".toList) =
      '\x7b' :: ([("status", Doc.string "error")].flatMap (fun f => fieldText f ++ [',']) ++
        (printString "message" ++ ':' :: (quoted text ++ ['\x7d']))) := by
    simp [quoted, fieldText, printString, escape]
  rw [htext]
  refine (readDocument_object_iff (by simp) fun tail h => (readValue_quoted_iff.mp h).2.symm).trans ?_
  rw [readValue_quoted_iff, and_iff_left rfl]

theorem mapJson_eq (parsed : MapParseResult) : mapJson parsed = '\x7b' :: ([("status", Doc.string "ok"),
    ("accepted", .number (.ofNat parsed.nodes.length)), ("discarded", .number (.ofNat parsed.totalDiscarded)),
    ("matrix_size", .number (.ofNat (buildAdjacencyMatrix parsed.nodes).size))].flatMap
      (fun f => fieldText f ++ [',']) ++ (printString "nodes" ++ ':' ::
      (acceptedIds (parsed.nodes.map MapNode.nodeId) ++ ['\x7d']))) := by
  have hcount (n : Nat) : (NumberText.text (NumberToken.ofNat n)) = (toString n).toList := Nat.toList_repr.symm
  simp only [flatMap_cons, flatMap_nil, fieldText, printUnformatted_string, printUnformatted_number, hcount]
  unfold mapJson
  generalize (toString (buildAdjacencyMatrix parsed.nodes).size).toList = m
  generalize (toString parsed.totalDiscarded).toList = d
  generalize (toString parsed.nodes.length).toList = a
  simp only [append_assoc, cons_append, nil_append]
  rfl

theorem readDocument_map_iff (parsed : MapParseResult) :
    readDocument (mapJson parsed) = some (mapDocument parsed) ↔ ∀ node ∈ parsed.nodes, Unescaped node.nodeId := by
  rw [mapJson_eq]
  refine (readDocument_object_iff (by simp) fun tail h => ((readValue_acceptedIds_iff _).mp h).2.symm).trans ?_
  rw [readValue_acceptedIds_iff, and_iff_left rfl, List.forall_mem_map]

theorem readDocument_object {fields : List (String × Doc NumberToken)} (h : ∀ f ∈ fields, Readable 999 f.2) :
    readDocument (printUnformatted (.object fields)) = some (.object fields) :=
  readDocument_printUnformatted (readable_object h)

theorem readDocument_flow (flow : FlowResponse) : readDocument (buildFlowResponseJson printNumber measured flow) =
    some (flowDocument printNumber measured flow) :=
  readDocument_object (by simp)

theorem readDocument_circuit (found : CircuitResponse) :
    readDocument (buildCircuitResponseJson printNumber measured found) =
      some (circuitDocument printNumber measured found) := by
  have hcircuits : Readable 999 (.array (found.circuits.map fun circuit => .array (circuit.map .string)) :
      Doc NumberToken) := by
    refine readable_array (forall_mem_map.mpr fun circuit _ => ?_)
    exact readable_array (forall_mem_map.mpr fun id _ => readable_string 996 id)
  exact readDocument_object (by simp [hcircuits])

theorem answers_respond_iff {α : Type} {document : α → Doc NumberToken} {print : α → List Char}
    (result : Except String α) : Answers document (respond print result) result ↔
      (∀ a, result = .ok a → readDocument (print a) = some (document a)) ∧
        ∀ what, result = .error what → Unescaped what := by
  cases result with
  | ok a => simp [Answers, respond]
  | error what => simp only [Answers, respond, readDocument_error_iff, true_and, reduceCtorEq, false_implies,
      implies_true, Except.error.injEq, forall_eq']

theorem unescaped_append {start : String} (h : Unescaped start) : Unescaped (start ++ text) ↔ Unescaped text := by
  simp only [Unescaped, String.toList_append, forall_mem_append]
  exact and_iff_right h

def fulfillmentCenters : List String :=
  (collectNodeIndicesByType graph fulfillmentCenterNodeType).map graph.indexToNodeId

/-- The accepted ids, and the source, sink or start that an error names, have no character
that JSON escapes. -/
structure Plain (body : String) : Prop where
  ids : ∀ parsed, parseMapJson parse body = .ok parsed → ∀ node ∈ parsed.nodes, Unescaped node.nodeId
  source : ∀ source sink, parseFlowRequestJson parse body = .ok (source, sink) → isGraphLoaded graph →
    graph.nodeToIndex source = none → Unescaped source
  sink : ∀ source sink, parseFlowRequestJson parse body = .ok (source, sink) → isGraphLoaded graph →
    graph.nodeToIndex source ≠ none → graph.nodeToIndex sink = none → Unescaped sink
  start : ∀ start, parseCircuitRequestJson parse body = .ok start → isGraphLoaded graph →
    (fulfillmentCenters graph).length ≤ maxFulfillmentCircuitNodes → start ≠ "" → start ∉ fulfillmentCenters graph →
      Unescaped start

variable {graph}

theorem fulfillmentFlow_error_iff (source sink : String) :
    (∀ what, fulfillmentFlow graph source sink = .error what → Unescaped what) ↔ (isGraphLoaded graph →
      (graph.nodeToIndex source = none → Unescaped source) ∧
        (graph.nodeToIndex source ≠ none → graph.nodeToIndex sink = none → Unescaped sink)) := by
  have hloaded : Unescaped "No map data loaded. Call /map first." := by decide
  have hsource : Unescaped "Source node not found in graph: " := by decide
  have hsink : Unescaped "Sink node not found in graph: " := by decide
  rw [fulfillmentFlow]
  split
  · next h =>
    cases graph.nodeToIndex source <;> cases graph.nodeToIndex sink <;>
      simp [h, unescaped_append hsource, unescaped_append hsink]
  · next h => simp [h, hloaded]

theorem unescaped_of_search {n : Nat} {adj : CostMatrix n} {index : Int} {α : Type} {what : String}
    {result : CircuitSolver.CircuitResult n → α}
    (h : (CircuitSolver.findHamiltonianCircuits adj index).map result = .error what) : Unescaped what := by
  unfold CircuitSolver.findHamiltonianCircuits at h
  split_ifs at h
  · cases h
  · cases h
    decide
  · cases h

theorem fulfillmentCircuit_error_iff (start : String) :
    (∀ what, fulfillmentCircuit graph start = .error what → Unescaped what) ↔ (isGraphLoaded graph →
      (fulfillmentCenters graph).length ≤ maxFulfillmentCircuitNodes → start ≠ "" →
        start ∉ fulfillmentCenters graph → Unescaped start) := by
  have hloaded : Unescaped "No map data loaded. Call /map first." := by decide
  have hlimit : Unescaped ("Fulfillment-center subgraph exceeds the supported limit of " ++
      toString maxFulfillmentCircuitNodes ++ " nodes") := by decide
  have hstart : Unescaped "Start node is not a secure active fulfillment center: " := by decide
  have hlength : (fulfillmentCenters graph).length =
      (collectNodeIndicesByType graph fulfillmentCenterNodeType).length := length_map _
  rw [fulfillmentCircuit]
  split
  · next h =>
    simp only [h, hlength, true_implies]
    split
    · next hbig => simpa [Nat.not_le_of_lt hbig] using hlimit
    · next hsize =>
      rw [startIndex]
      split_ifs with hempty hmem
      · refine iff_of_true (fun what => unescaped_of_search) fun _ hne => absurd hempty hne
      · refine iff_of_true (fun what => unescaped_of_search) fun _ _ hnot => absurd hmem hnot
      · have hmem' : start ∉ fulfillmentCenters graph := hmem
        simp [hempty, hmem', Nat.le_of_not_lt hsize, unescaped_append hstart, bind, Except.bind]
  · next h => simp [h, hloaded]

theorem bind_error_iff {α β : Type} {x : Except String α} {f : α → Except String β} {P : String → Prop}
    (hx : ∀ what, x = .error what → P what) : (∀ what, x.bind f = .error what → P what) ↔
      ∀ a, x = .ok a → ∀ what, f a = .error what → P what := by
  cases x with
  | ok a => simp [Except.bind]
  | error what => simpa [Except.bind] using hx what rfl

theorem unescaped_of_parse {body what : String} (h : parseMapJson parse body = .error what ∨
    parseFlowRequestJson parse body = .error what ∨ parseCircuitRequestJson parse body = .error what) :
    Unescaped what := by
  rcases h with h | h | h
  · unfold parseMapJson at h
    split at h <;> cases h <;> decide
  · unfold parseFlowRequestJson at h
    split at h
    · cases h
      decide
    · split at h <;> cases h
      decide
  · unfold parseCircuitRequestJson at h
    split_ifs at h
    split at h
    · cases h
      decide
    · split at h <;> cases h
      decide
    · cases h
      decide

def market (id : String) : Value :=
  .object [("node_id", .string id), ("node_type", .string "market"), ("is_active", .bool true),
    ("is_secure", .bool true)]

end Logistics.RestAnswers
