import Mathlib.Algebra.Ring.Int.Defs
import Mathlib.Data.Fintype.Pi
import Mathlib.Data.List.GetD

namespace Logistics.JsonManager

open List

inductive MsgType
  | hubToServerAuthRequest
  | hubToServerKeepalive
  | hubToServerInventoryUpdate
  | hubToServerEmergencyAlert
  | hubToServerStockRequest
  | hubToServerStockReceiptConfirmation
  | hubToServerDispatchConfirmation
  | hubToServerAck
  | warehouseToServerAuthRequest
  | warehouseToServerKeepalive
  | warehouseToServerInventoryUpdate
  | warehouseToServerShipmentNotice
  | warehouseToServerReplenishRequest
  | warehouseToServerStockReceiptConfirmation
  | warehouseToServerEmergencyAlert
  | warehouseToServerAck
  | serverToHubAuthResponse
  | serverToWarehouseAuthResponse
  | serverToHubInventoryUpdate
  | serverToWarehouseInventoryUpdate
  | serverToWarehouseOrderToDispatchStockToHub
  | serverToWarehouseRestockNotice
  | serverToHubIncomingStockNotice
  | serverToHubOrderToDispatchStock
  | serverToAllClientsEmergencyAlert
  | serverToHubAck
  | serverToWarehouseAck
  | cliToServerAuthRequest
  | cliToServerAdminCommand
  | serverToCliAuthResponse
  | gatewayToServerAuthRequest
  | gatewayToServerAck
  | gatewayToServerKeepalive
  | gatewayToServerCommand
  | serverToGatewayAuthResponse
  | serverToGatewayAck
  | serverToGatewayCommandResponse
  | serverToGatewayOrderDispatched
  | other (text : String)
  deriving DecidableEq, Repr

def MsgType.text : MsgType → String
  | .hubToServerAuthRequest => "HUB_TO_SERVER__AUTH_REQUEST"
  | .hubToServerKeepalive => "HUB_TO_SERVER__KEEPALIVE"
  | .hubToServerInventoryUpdate => "HUB_TO_SERVER__INVENTORY_UPDATE"
  | .hubToServerEmergencyAlert => "HUB_TO_SERVER__EMERGENCY_ALERT"
  | .hubToServerStockRequest => "HUB_TO_SERVER__STOCK_REQUEST"
  | .hubToServerStockReceiptConfirmation => "HUB_TO_SERVER__STOCK_RECEIPT_CONFIRMATION"
  | .hubToServerDispatchConfirmation => "HUB_TO_SERVER__DISPATCH_CONFIRMATION"
  | .hubToServerAck => "HUB_TO_SERVER__ACK"
  | .warehouseToServerAuthRequest => "WAREHOUSE_TO_SERVER__AUTH_REQUEST"
  | .warehouseToServerKeepalive => "WAREHOUSE_TO_SERVER__KEEPALIVE"
  | .warehouseToServerInventoryUpdate => "WAREHOUSE_TO_SERVER__INVENTORY_UPDATE"
  | .warehouseToServerShipmentNotice => "WAREHOUSE_TO_SERVER__SHIPMENT_NOTICE"
  | .warehouseToServerReplenishRequest => "WAREHOUSE_TO_SERVER__REPLENISH_REQUEST"
  | .warehouseToServerStockReceiptConfirmation => "WAREHOUSE_TO_SERVER__STOCK_RECEIPT_CONFIRMATION"
  | .warehouseToServerEmergencyAlert => "WAREHOUSE_TO_SERVER__EMERGENCY_ALERT"
  | .warehouseToServerAck => "WAREHOUSE_TO_SERVER__ACK"
  | .serverToHubAuthResponse => "SERVER_TO_HUB__AUTH_RESPONSE"
  | .serverToWarehouseAuthResponse => "SERVER_TO_WAREHOUSE__AUTH_RESPONSE"
  | .serverToHubInventoryUpdate => "SERVER_TO_HUB__INVENTORY_UPDATE"
  | .serverToWarehouseInventoryUpdate => "SERVER_TO_WAREHOUSE__INVENTORY_UPDATE"
  | .serverToWarehouseOrderToDispatchStockToHub => "SERVER_TO_WAREHOUSE__ORDER_TO_DISPATCH_STOCK_TO_HUB"
  | .serverToWarehouseRestockNotice => "SERVER_TO_WAREHOUSE__RESTOCK_NOTICE"
  | .serverToHubIncomingStockNotice => "SERVER_TO_HUB__INCOMING_STOCK_NOTICE"
  | .serverToHubOrderToDispatchStock => "SERVER_TO_HUB__ORDER_TO_DISPATCH_STOCK"
  | .serverToAllClientsEmergencyAlert => "SERVER_TO_ALL_CLIENTS__EMERGENCY_ALERT"
  | .serverToHubAck => "SERVER_TO_HUB__ACK"
  | .serverToWarehouseAck => "SERVER_TO_WAREHOUSE__ACK"
  | .cliToServerAuthRequest => "CLI_TO_SERVER__AUTH_REQUEST"
  | .cliToServerAdminCommand => "CLI_TO_SERVER__ADMIN_COMMAND"
  | .serverToCliAuthResponse => "SERVER_TO_CLI__AUTH_RESPONSE"
  | .gatewayToServerAuthRequest => "GATEWAY_TO_SERVER__AUTH_REQUEST"
  | .gatewayToServerAck => "GATEWAY_TO_SERVER__ACK"
  | .gatewayToServerKeepalive => "GATEWAY_TO_SERVER__KEEPALIVE"
  | .gatewayToServerCommand => "GATEWAY_TO_SERVER__COMMAND"
  | .serverToGatewayAuthResponse => "SERVER_TO_GATEWAY__AUTH_RESPONSE"
  | .serverToGatewayAck => "SERVER_TO_GATEWAY__ACK"
  | .serverToGatewayCommandResponse => "SERVER_TO_GATEWAY__COMMAND_RESPONSE"
  | .serverToGatewayOrderDispatched => "SERVER_TO_GATEWAY__ORDER_DISPATCHED"
  | .other text => text

def warehouse : String := "WAREHOUSE"
def hub : String := "HUB"
def server : String := "SERVER"
def cli : String := "CLI"
def gateway : String := "GATEWAY"

def roleSize : Nat := 16
def idSize : Nat := 16
def timestampSize : Nat := 32
def checksumSize : Nat := 8
def credentialsSize : Nat := 64

/-- Copying into a field of the given size keeps room for the terminator.
One character stands for one byte. -/
def safeStrcpy (size : Nat) (src : String) : String := String.ofList (src.toList.take (size - 1))

abbrev Quantities := Fin 6 → Int

structure Item where
  itemId : Int
  itemName : String
  quantity : Int
  deriving DecidableEq, Repr

def Item.zero : Item := ⟨0, "", 0⟩

abbrev Items := Fin 6 → Item

structure ItemsList where
  items : Items
  orderTimestamp : String

def ItemsList.zero : ItemsList := ⟨fun _ => .zero, ""⟩

inductive Payload
  | authRequest (username password : String)
  | authResponse (statusCode : Int)
  | keepalive (message : String)
  | items (list : ItemsList)
  | clientEmergency (emergencyCode : Int) (emergencyType : String)
  | serverEmergency (emergencyCode : Int) (instructions : String)
  | acknowledgment (statusCode : Int) (ackForTimestamp : String)
  | genericArgs (args : String)

structure Message where
  msgType : MsgType
  sourceRole : String
  sourceId : String
  targetRole : String
  targetId : String
  timestamp : String
  payload : Payload
  checksum : String

def Message.items (msg : Message) : ItemsList :=
  match msg.payload with
  | .items list => list
  | _ => .zero

def djb2 (hash : Nat) (text : String) : Nat :=
  text.toUTF8.toList.foldl (fun h b => ((h <<< 5) + h + b.toNat) % 2 ^ 64) hash

def generateChecksum (msgType : MsgType) (sourceId : String) : String :=
  let hash := djb2 (djb2 5381 msgType.text) sourceId
  safeStrcpy checksumSize (String.ofList ((Nat.toDigits 16 (hash &&& 0xFFFFFF)).map Char.toUpper))

def createMessage (msgType : MsgType) (sourceRole sourceId targetRole targetId : String) (payload : Payload)
    (timestamp : String) : Message where
  msgType := msgType
  sourceRole := safeStrcpy roleSize sourceRole
  sourceId := safeStrcpy idSize sourceId
  targetRole := safeStrcpy roleSize targetRole
  targetId := safeStrcpy idSize targetId
  timestamp := timestamp
  payload := payload
  checksum := generateChecksum msgType (safeStrcpy idSize sourceId)

def prefixRoles (text : String) : Option (String × String) :=
  if "HUB_TO_SERVER".toList <+: text.toList then some (hub, server)
  else if "WAREHOUSE_TO_SERVER".toList <+: text.toList then some (warehouse, server)
  else if "SERVER_TO_HUB".toList <+: text.toList then some (server, hub)
  else if "SERVER_TO_WAREHOUSE".toList <+: text.toList then some (server, warehouse)
  else none

def firstItems (items : Items) (itemCount : Nat) : Items := fun i => if i.val < itemCount then items i else .zero

def createItemsMessage (msgType : MsgType) (sourceId targetId : String) (items : Items) (itemCount : Nat)
    (orderTimestamp : Option String) (timestamp : String) : Option Message :=
  let receipt := msgType = .hubToServerStockReceiptConfirmation ∨
    msgType = .warehouseToServerStockReceiptConfirmation
  let stamp := if receipt then safeStrcpy timestampSize (orderTimestamp.getD "") else ""
  (prefixRoles msgType.text).map fun roles =>
    createMessage msgType roles.1 sourceId roles.2 targetId (.items ⟨firstItems items itemCount, stamp⟩) timestamp

def createAcknowledgmentMessage (sourceRole sourceId targetRole targetId ackForTimestamp : String)
    (statusCode : Int) (timestamp : String) : Option Message :=
  let msgType : Option MsgType :=
    if sourceRole = hub ∧ targetRole = server then some .hubToServerAck
    else if sourceRole = warehouse ∧ targetRole = server then some .warehouseToServerAck
    else if sourceRole = gateway ∧ targetRole = server then some .gatewayToServerAck
    else if sourceRole = server ∧ targetRole = hub then some .serverToHubAck
    else if sourceRole = server ∧ targetRole = warehouse then some .serverToWarehouseAck
    else if sourceRole = server ∧ targetRole = gateway then some .serverToGatewayAck
    else none
  msgType.map fun t =>
    createMessage t sourceRole sourceId targetRole targetId
      (.acknowledgment statusCode (safeStrcpy timestampSize ackForTimestamp)) timestamp

def setQuantity (q : Quantities) (item : Item) : Quantities :=
  fun j => if item.itemId = (j.val : Int) + 1 then item.quantity else q j

def extractQuantities (items : Items) : Quantities := (ofFn items).foldl setQuantity 0

def itemNames : Fin 6 → String
  | 0 => "food"
  | 1 => "water"
  | 2 => "medicine"
  | 3 => "tools"
  | 4 => "guns"
  | 5 => "ammo"

def itemsOf (list : List Item) : Items := fun i => list.getD i.val .zero

def positiveItems (q : Quantities) : List Item :=
  ((finRange 6).filter fun j => 0 < q j).map fun j => ⟨(j.val : Int) + 1, itemNames j, q j⟩

/-- What the receiver gets after `serialize_items_list` and `deserialize_items_list`:
entries with item id 0 are not written. -/
def transmitted (items : Items) : Items := itemsOf ((ofFn items).filter fun item => item.itemId ≠ 0)

def Message.delivered (msg : Message) : Message :=
  match msg.payload with
  | .items list => { msg with payload := .items { list with items := transmitted list.items } }
  | _ => msg

variable {items : Items} {q : Quantities} {list : List Item}

theorem ofFn_itemsOf (h : list.length ≤ 6) : ofFn (itemsOf list) = list ++ replicate (6 - list.length) .zero := by
  apply ext_getElem
  · simp [Nat.add_sub_cancel' h]
  · intro n h₁ h₂
    rw [List.getElem_ofFn, itemsOf]
    by_cases hn : n < list.length
    · rw [getD_eq_getElem _ _ hn, getElem_append_left hn]
    · rw [getD_eq_default _ _ (Nat.le_of_not_lt hn), getElem_append_right (Nat.le_of_not_lt hn),
        getElem_replicate]

theorem setQuantity_of_id_zero {item : Item} (h : item.itemId = 0) : setQuantity q item = q := by
  funext j
  rw [setQuantity, if_neg (by omega)]

theorem foldl_setQuantity_filter (list : List Item) (q : Quantities) :
    (list.filter fun item => item.itemId ≠ 0).foldl setQuantity q = list.foldl setQuantity q := by
  induction list generalizing q with
  | nil => rfl
  | cons item rest ih =>
    by_cases h : item.itemId = 0
    · rw [filter_cons_of_neg (by simp [h]), foldl_cons, setQuantity_of_id_zero h, ih]
    · rw [filter_cons_of_pos (by simp [h]), foldl_cons, foldl_cons, ih]

theorem extractQuantities_itemsOf (h : list.length ≤ 6) :
    extractQuantities (itemsOf list) = list.foldl setQuantity 0 := by
  rw [extractQuantities, ofFn_itemsOf h, foldl_append]
  generalize 6 - list.length = n
  induction n with
  | zero => rfl
  | succ n ih => rw [replicate_succ, foldl_cons, setQuantity_of_id_zero rfl, ih]

theorem extractQuantities_transmitted (items : Items) :
    extractQuantities (transmitted items) = extractQuantities items := by
  have hlength : ((ofFn items).filter fun item => item.itemId ≠ 0).length ≤ 6 :=
    (length_filter_le _ _).trans (by simp)
  rw [transmitted, extractQuantities_itemsOf hlength, foldl_setQuantity_filter]
  rfl

@[simp] theorem delivered_msgType (msg : Message) : msg.delivered.msgType = msg.msgType := by
  rw [Message.delivered]
  split <;> rfl

@[simp] theorem delivered_sourceId (msg : Message) : msg.delivered.sourceId = msg.sourceId := by
  rw [Message.delivered]
  split <;> rfl

@[simp] theorem delivered_timestamp (msg : Message) : msg.delivered.timestamp = msg.timestamp := by
  rw [Message.delivered]
  split <;> rfl

theorem delivered_items (msg : Message) : msg.delivered.items.items = transmitted msg.items.items := by
  cases hp : msg.payload with
  | items list => simp [Message.delivered, Message.items, hp]
  | _ =>
    simp only [Message.delivered, hp, Message.items, ItemsList.zero]
    rfl

@[simp] theorem extractQuantities_delivered (msg : Message) :
    extractQuantities msg.delivered.items.items = extractQuantities msg.items.items := by
  rw [delivered_items, extractQuantities_transmitted]

theorem safeStrcpy_of_length_lt {size : Nat} {s : String} (h : s.length < size) : safeStrcpy size s = s := by
  rw [safeStrcpy, take_of_length_le (by rw [String.length_toList]; omega), String.ofList_toList]

theorem safeStrcpy_safeStrcpy (size : Nat) (s : String) : safeStrcpy size (safeStrcpy size s) = safeStrcpy size s := by
  rw [safeStrcpy, safeStrcpy, String.toList_ofList, take_take, Nat.min_self]

theorem safeStrcpy_of_not_full {size : Nat} {s : String} (h : (safeStrcpy size s).length < size - 1) :
    safeStrcpy size s = s := by
  apply safeStrcpy_of_length_lt
  rw [safeStrcpy, String.length_ofList, length_take, String.length_toList] at h
  omega

variable {roles : String × String} {msgType : MsgType}

theorem createItemsMessage_eq (hr : prefixRoles msgType.text = some roles) (sourceId targetId : String) (items : Items)
    (itemCount : Nat) (orderTimestamp : Option String) (stamp : String) : ∃ m : Message,
    createItemsMessage msgType sourceId targetId items itemCount orderTimestamp stamp = some m ∧ m.msgType = msgType ∧
    m.sourceRole = safeStrcpy roleSize roles.1 ∧ m.sourceId = safeStrcpy idSize sourceId ∧ m.timestamp = stamp ∧
    m.items.items = firstItems items itemCount := by
  simp only [createItemsMessage, hr, Option.map_some]
  exact ⟨_, rfl, rfl, rfl, rfl, rfl, rfl⟩

theorem firstItems_of_le {count : Nat} (h : 6 ≤ count) : firstItems items count = items := by
  funext i
  rw [firstItems, if_pos (by omega)]

theorem createItemsMessage_delivered (hr : prefixRoles msgType.text = some roles) {sourceId : String}
    (hlen : sourceId.length < idSize) (targetId : String) (items : Items) (orderTimestamp : Option String)
    (stamp : String) : ∃ m : Message, createItemsMessage msgType sourceId targetId items 6 orderTimestamp stamp =
    some m ∧ m.msgType = msgType ∧ m.delivered.sourceId = sourceId ∧ m.delivered.timestamp = stamp ∧
    m.delivered.items.items = transmitted items := by
  obtain ⟨m, hm, htype, -, hsource, hts, hitems⟩ := createItemsMessage_eq hr sourceId targetId items 6 orderTimestamp
    stamp
  refine ⟨m, hm, htype, ?_, ?_, ?_⟩
  · rw [delivered_sourceId, hsource, safeStrcpy_of_length_lt hlen]
  · rw [delivered_timestamp, hts]
  · rw [delivered_items, hitems, firstItems_of_le le_rfl]

theorem firstItems_itemsOf (list : List Item) : firstItems (itemsOf list) list.length = itemsOf list := by
  funext i
  rw [firstItems]
  split
  · rfl
  · next h => rw [itemsOf, getD_eq_default _ _ (Nat.le_of_not_lt h)]

theorem foldl_setQuantity_map (list : List (Fin 6)) (start : Quantities) (j : Fin 6) :
    (list.map fun i => (⟨(i.val : Int) + 1, itemNames i, q i⟩ : Item)).foldl setQuantity start j =
      if j ∈ list then q j else start j := by
  induction list generalizing start with
  | nil => rfl
  | cons i rest ih =>
    rw [map_cons, foldl_cons, ih]
    by_cases hj : j ∈ rest
    · simp [hj]
    · by_cases hij : j = i
      · simp [hij, setQuantity]
      · have hval : i.val ≠ j.val := fun h => hij (Fin.ext h.symm)
        simp only [hj, hij, setQuantity, mem_cons, or_self, if_false]
        exact if_neg (by omega)

theorem length_positiveItems (q : Quantities) : (positiveItems q).length ≤ 6 := by
  rw [positiveItems, length_map]
  exact (length_filter_le _ _).trans (by simp)

theorem extractQuantities_positiveItems (h : ∀ j, 0 ≤ q j) : extractQuantities (itemsOf (positiveItems q)) = q := by
  rw [extractQuantities_itemsOf (length_positiveItems q), positiveItems]
  funext j
  rw [foldl_setQuantity_map]
  by_cases hj : 0 < q j
  · simp [hj]
  · have hz := h j
    simp only [mem_filter, mem_finRange, true_and, decide_eq_true_eq, hj, if_false, Pi.zero_apply]
    omega

end Logistics.JsonManager
