import Logistics.Server

namespace Logistics.Serialize

open JsonManager JsonText Deserialize Server List

def listed (items : Items) : List Item := (ofFn items).filter fun item => item.itemId ≠ 0

def serializeItem (item : Item) : Json :=
  .object [("item_id", .number item.itemId), ("item_name", .string item.itemName), ("quantity", .number item.quantity)]

def serializeItemsList (list : ItemsList) : Json :=
  .object (("items", .array ((listed list.items).map serializeItem)) ::
    if list.orderTimestamp = "" then [] else [("order_timestamp", .string list.orderTimestamp)])

def serializePayload : Payload → Json
  | .authRequest username password => .object [("username", .string username), ("password", .string password)]
  | .authResponse statusCode => .object [("status_code", .number statusCode)]
  | .keepalive message => .object [("message", .string message)]
  | .items list => serializeItemsList list
  | .clientEmergency emergencyCode emergencyType =>
    .object [("emergency_code", .number emergencyCode), ("emergency_type", .string emergencyType)]
  | .serverEmergency emergencyCode instructions =>
    .object [("emergency_code", .number emergencyCode), ("instructions", .string instructions)]
  | .acknowledgment statusCode ackForTimestamp =>
    .object [("status_code", .number statusCode), ("ack_for_timestamp", .string ackForTimestamp)]
  | .genericArgs args => .object [("args", .string args)]

def kindOf : Payload → PayloadHandler
  | .authRequest _ _ => .authRequest
  | .authResponse _ => .authResponse
  | .keepalive _ => .keepalive
  | .items _ => .itemsList
  | .clientEmergency _ _ => .clientEmergency
  | .serverEmergency _ _ => .serverEmergency
  | .acknowledgment _ _ => .acknowledgment
  | .genericArgs _ => .genericArgs

/-- The payload of the message is the member of the union that the handler of its
type reads. -/
def serializeMessage (msg : Message) : Json :=
  .object
    ([("msg_type", .string msg.msgType.text), ("source_role", .string msg.sourceRole),
      ("source_id", .string msg.sourceId), ("target_role", .string msg.targetRole),
      ("target_id", .string msg.targetId), ("timestamp", .string msg.timestamp)] ++
    (match findHandler msg.msgType.text with
      | some _ => [("payload", serializePayload msg.payload)]
      | none => []) ++
    [("checksum", .string msg.checksum)])

/-- The text is what `cJSON_PrintPreallocated` puts into a buffer of the given size,
or none. -/
def serializeMessageToJson (printPreallocated : Json → Nat → Option String) (msg : Message) : Option String :=
  printPreallocated (serializeMessage msg) bufferSize

def TerminatedPayload : Payload → Prop
  | .authRequest username password => username.length < credentialsSize ∧ password.length < credentialsSize
  | .authResponse _ => True
  | .keepalive message => message.length < descriptionSize
  | .items list => (∀ i, (list.items i).itemName.length < itemNameSize) ∧ list.orderTimestamp.length < timestampSize
  | .clientEmergency _ emergencyType => emergencyType.length < emergencyTypeSize
  | .serverEmergency _ instructions => instructions.length < emergencyInstructionsSize
  | .acknowledgment _ ackForTimestamp => ackForTimestamp.length < timestampSize
  | .genericArgs args => args.length < descriptionSize

structure Terminated (msg : Message) : Prop where
  msgType : msg.msgType.text.length < messageTypeSize
  sourceRole : msg.sourceRole.length < roleSize
  sourceId : msg.sourceId.length < idSize
  targetRole : msg.targetRole.length < roleSize
  targetId : msg.targetId.length < idSize
  timestamp : msg.timestamp.length < timestampSize
  payload : TerminatedPayload msg.payload
  checksum : msg.checksum.length < checksumSize

theorem field_eq {root : Json} {key text : String} {size : Nat} (hitem : root.item key = some (.string text))
    (hlen : text.length < size) : field root key size = text := by
  rw [field, Doc.textItem, hitem, Option.bind_some, Doc.text, Option.map_some, Option.getD_some,
    safeStrcpy_of_length_lt hlen]

theorem intField_eq {root : Json} {key : String} {value : Int} (hitem : root.item key = some (.number value)) :
    intField root key = value := by
  rw [intField, Doc.intItem, hitem]
  rfl

theorem length_listed (items : Items) : (listed items).length ≤ 6 := (length_filter_le _ _).trans (by rw [length_ofFn])

theorem deserialize_serializeItem {item : Item} (h : item.itemName.length < itemNameSize) :
    deserializeItem (serializeItem item) = item := by
  have hid : (serializeItem item).item "item_id" = some (.number item.itemId) := rfl
  have hname : (serializeItem item).item "item_name" = some (.string item.itemName) := rfl
  have hquantity : (serializeItem item).item "quantity" = some (.number item.quantity) := rfl
  rw [deserializeItem, intField_eq hid, field_eq hname h, intField_eq hquantity]

theorem map_deserializeItem {items : List Item} (h : ∀ item ∈ items, item.itemName.length < itemNameSize) :
    (items.map serializeItem).map deserializeItem = items := by
  rw [map_map]
  conv_rhs => rw [← map_id items]
  exact map_congr_left fun item hitem => deserialize_serializeItem (h item hitem)

theorem deserialize_serializeItemsList {list : ItemsList} (h : TerminatedPayload (.items list)) :
    deserializeItemsList (serializeItemsList list) = ⟨transmitted list.items, list.orderTimestamp⟩ := by
  have hitems : (serializeItemsList list).item "items" = some (.array ((listed list.items).map serializeItem)) := rfl
  have hnames : ∀ item ∈ listed list.items, item.itemName.length < itemNameSize := by
    intro item hitem
    obtain ⟨i, rfl⟩ := mem_ofFn.mp (mem_of_mem_filter hitem)
    exact h.1 i
  have hstamp : field (serializeItemsList list) "order_timestamp" timestampSize = list.orderTimestamp := by
    by_cases he : list.orderTimestamp = ""
    · rw [serializeItemsList, if_pos he, he]
      rfl
    · apply field_eq ?_ h.2
      rw [serializeItemsList, if_neg he]
      rfl
  have htake : ((listed list.items).map serializeItem).take 6 = (listed list.items).map serializeItem :=
    take_of_length_le (by rw [length_map]; exact length_listed _)
  rw [deserializeItemsList, hitems, hstamp]
  simp only [htake, map_deserializeItem hnames]
  rfl

def received : Payload → Payload
  | .items list => .items { list with items := transmitted list.items }
  | payload => payload

theorem delivered_eq (msg : Message) : msg.delivered = { msg with payload := received msg.payload } := by
  rw [Message.delivered]
  split
  · next list hp => rw [hp, received]
  · next hp =>
    cases msg with
    | mk _ _ _ _ _ _ payload _ =>
      cases payload with
      | items list => exact absurd rfl (hp list)
      | _ => rfl

theorem deserialize_serializePayload {payload : Payload} (h : TerminatedPayload payload) :
    (kindOf payload).deserialize (serializePayload payload) = received payload := by
  cases payload with
  | authRequest username password => exact congrArg₂ Payload.authRequest (field_eq rfl h.1) (field_eq rfl h.2)
  | authResponse statusCode => exact congrArg Payload.authResponse (intField_eq rfl)
  | keepalive message => exact congrArg Payload.keepalive (field_eq rfl h)
  | items list => exact congrArg Payload.items (deserialize_serializeItemsList h)
  | clientEmergency emergencyCode emergencyType =>
    exact congrArg₂ Payload.clientEmergency (intField_eq rfl) (field_eq rfl h)
  | serverEmergency emergencyCode instructions =>
    exact congrArg₂ Payload.serverEmergency (intField_eq rfl) (field_eq rfl h)
  | acknowledgment statusCode ackForTimestamp =>
    exact congrArg₂ Payload.acknowledgment (intField_eq rfl) (field_eq rfl h)
  | genericArgs args => exact congrArg Payload.genericArgs (field_eq rfl h)

theorem serializePayload_object (payload : Payload) : ∃ fields, serializePayload payload = .object fields := by
  cases payload <;> exact ⟨_, rfl⟩

theorem text_msgTypeOf (text : String) : (msgTypeOf text).text = text := by
  rw [msgTypeOf]
  cases hfind : knownTypes.find? fun t => t.text = text with
  | none => rfl
  | some t => simpa using find?_some hfind

theorem deserialize_serializeMessage {msg : Message} (hkind : findHandler msg.msgType.text = some (kindOf msg.payload))
    (h : Terminated msg) : deserializeMessage (serializeMessage msg) =
      { msg.delivered with msgType := msgTypeOf msg.msgType.text } := by
  obtain ⟨fields, hfields⟩ := serializePayload_object msg.payload
  have hroot : serializeMessage msg = .object
      [("msg_type", .string msg.msgType.text), ("source_role", .string msg.sourceRole),
        ("source_id", .string msg.sourceId), ("target_role", .string msg.targetRole),
        ("target_id", .string msg.targetId), ("timestamp", .string msg.timestamp),
        ("payload", .object fields), ("checksum", .string msg.checksum)] := by
    simp only [serializeMessage, hkind, hfields]
    rfl
  have hpayload : deserializePayload msg.msgType.text (some (.object fields)) = received msg.payload := by
    simp only [deserializePayload, hkind]
    rw [← hfields, deserialize_serializePayload h.payload]
  rw [hroot, deserializeMessage, field_eq rfl h.msgType, field_eq rfl h.sourceRole, field_eq rfl h.sourceId,
    field_eq rfl h.targetRole, field_eq rfl h.targetId, field_eq rfl h.timestamp, field_eq rfl h.checksum, delivered_eq,
    ← hpayload]
  rfl

theorem listed_transmitted (items : Items) : listed (transmitted items) = listed items := by
  have hfilter : (listed items).filter (fun item => item.itemId ≠ 0) = listed items := by
    rw [listed]
    simp
  have hzeros : (replicate (6 - (listed items).length) Item.zero).filter (fun item => item.itemId ≠ 0) = [] := by
    rw [filter_eq_nil_iff]
    intro item hitem
    simp [eq_of_mem_replicate hitem, Item.zero]
  calc listed (transmitted items) = (ofFn (itemsOf (listed items))).filter fun item => item.itemId ≠ 0 := rfl
    _ = listed items := by rw [ofFn_itemsOf (length_listed items), filter_append, hfilter, hzeros, append_nil]

theorem serializePayload_received (payload : Payload) :
    serializePayload (received payload) = serializePayload payload := by
  cases payload with
  | items list => simp only [received, serializePayload, serializeItemsList, listed_transmitted]
  | _ => rfl

theorem serializeMessage_delivered (msg : Message) :
    serializeMessage { msg.delivered with msgType := msgTypeOf msg.msgType.text } = serializeMessage msg := by
  rw [delivered_eq]
  simp only [serializeMessage, text_msgTypeOf, serializePayload_received]

def SamePayload : Payload → Payload → Prop
  | .items list, .items list' => listed list.items = listed list'.items ∧ list.orderTimestamp = list'.orderTimestamp
  | payload, payload' => payload = payload'

theorem samePayload_received (payload : Payload) : SamePayload (received payload) payload := by
  cases payload with
  | items list => exact ⟨listed_transmitted list.items, rfl⟩
  | _ => rfl

structure SameMessage (msg msg' : Message) : Prop where
  msgType : msg.msgType.text = msg'.msgType.text
  sourceRole : msg.sourceRole = msg'.sourceRole
  sourceId : msg.sourceId = msg'.sourceId
  targetRole : msg.targetRole = msg'.targetRole
  targetId : msg.targetId = msg'.targetId
  timestamp : msg.timestamp = msg'.timestamp
  payload : SamePayload msg.payload msg'.payload
  checksum : msg.checksum = msg'.checksum

theorem sameMessage_delivered (msg : Message) :
    SameMessage { msg.delivered with msgType := msgTypeOf msg.msgType.text } msg := by
  rw [delivered_eq]
  exact ⟨text_msgTypeOf _, rfl, rfl, rfl, rfl, rfl, samePayload_received _, rfl⟩

/-- A message that is printed and parsed again is the same message but for the empty
entries of its item list, and is printed as the same text. -/
theorem message_round_trip (printPreallocated : Json → Nat → Option String) (parse : String → Option Json)
    (msg : Message) (text : String) (hterminated : Terminated msg)
    (hhandler : findHandler msg.msgType.text = some (kindOf msg.payload))
    (htext : serializeMessageToJson printPreallocated msg = some text)
    (hcJson : parse text = some (serializeMessage msg)) :
    ∃ msg', deserializeMessageFromJson parse text = some msg' ∧ SameMessage msg' msg ∧
      serializeMessageToJson printPreallocated msg' = some text := by
  refine ⟨_, ?_, sameMessage_delivered msg, ?_⟩
  · rw [deserializeMessageFromJson, hcJson, Option.map_some, deserialize_serializeMessage hhandler hterminated]
  · rwa [serializeMessageToJson, serializeMessage_delivered]

def stockRequest : Message :=
  createMessage .hubToServerStockRequest hub "hub_1" server server
    (.items ⟨itemsOf [⟨1, "food", 5⟩, ⟨0, "", 0⟩, ⟨3, "medicine", 2⟩], ""⟩) "2026-01-01T00:00:00.000Z"

theorem terminated_stockRequest : Terminated stockRequest :=
  ⟨by decide, by decide, by decide, by decide, by decide, by decide, ⟨by decide, by decide⟩, by decide +kernel⟩

theorem readable_serializePayload (depth : Nat) (payload : Payload) :
    Readable (depth + 4) (serializePayload payload) := by
  cases payload with
  | items list =>
    refine readable_object (forall_mem_cons.mpr ⟨readable_array (forall_mem_map.mpr fun item _ => ?_), ?_⟩)
    · exact readable_object (by simp)
    · split <;> simp
  | _ => exact readable_object (by simp)

theorem readable_serializeMessage (depth : Nat) (msg : Message) : Readable (depth + 5) (serializeMessage msg) := by
  apply readable_object
  cases findHandler msg.msgType.text <;> simp [readable_serializePayload]

theorem stock_request_round_trip : ∃ text msg', boundedPrint (serializeMessage stockRequest) bufferSize = some text ∧
      deserializeMessageFromJson (fun text => readDocument text.toList) text = some msg' ∧ SameMessage msg' stockRequest ∧
      serializeMessageToJson boundedPrint msg' = some text := by
  have hprinted : boundedPrint (serializeMessage stockRequest) bufferSize =
      some (String.ofList (printUnformatted (serializeMessage stockRequest))) := if_pos (by decide +kernel)
  have hread : readDocument (String.ofList (printUnformatted (serializeMessage stockRequest))).toList =
      some (serializeMessage stockRequest) := by
    rw [String.toList_ofList]
    exact readDocument_printUnformatted (readable_serializeMessage 995 _)
  obtain ⟨msg', hround⟩ := message_round_trip boundedPrint (fun text => readDocument text.toList) stockRequest _
    terminated_stockRequest (by decide +kernel) hprinted hread
  exact ⟨_, msg', hprinted, hround⟩

end Logistics.Serialize
