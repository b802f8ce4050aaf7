import Logistics.JsonManager

namespace Logistics.Client

open JsonManager

def maxPendingMessages : Nat := 10
def maxPendingAcks : Nat := 10
def ok : Int := 200

structure TimerConfig where
  lowStockThreshold : Int
  maxStockPerItem : Int

inductive InventoryOperation
  | add
  | reduce
  deriving DecidableEq, Repr

/-- The shared memory of a client. The item with id `i + 1` is counted at index
`i`; an inactive slot of `pending_acks` is none. -/
structure SharedData where
  clientRole : String
  clientId : String
  inventoryItem : Quantities
  pendingStockRequest : Fin 6 → Bool
  pendingMessages : List Message
  bounded : pendingMessages.length ≤ maxPendingMessages
  pendingAcks : Fin maxPendingAcks → Option String
  inventoryUpdated : Bool

def SharedData.enqueuePendingMessage (st : SharedData) (msg : Message) : Option SharedData :=
  if h : st.pendingMessages.length < maxPendingMessages then
    some { st with
      pendingMessages := st.pendingMessages ++ [msg]
      bounded := by simpa using Nat.succ_le_of_lt h }
  else none

def modified : InventoryOperation → Int → Int → Int
  | .add, stock, quantity => stock + quantity
  | .reduce, stock, quantity => stock - if quantity ≤ stock then quantity else stock

def modifyItem (operation : InventoryOperation) (stock : Quantities) (item : Item) : Quantities :=
  if item.itemId = 0 ∨ item.quantity = 0 then stock
  else fun j => if item.itemId = (j.val : Int) + 1 then modified operation (stock j) item.quantity else stock j

def SharedData.modifyInventory (st : SharedData) (items : Items) (operation : InventoryOperation) : SharedData :=
  { st with
    inventoryItem := (List.ofFn items).foldl (modifyItem operation) st.inventoryItem
    inventoryUpdated := true }

def SharedData.getLowStockReport (st : SharedData) (cfg : TimerConfig) : List (Item × Fin 6) :=
  ((List.finRange 6).filter fun i => st.inventoryItem i < cfg.lowStockThreshold ∧ st.pendingStockRequest i = false).map
    fun i => (⟨(i.val : Int) + 1, itemNames i, max 0 (cfg.maxStockPerItem - st.inventoryItem i)⟩, i)

def buildFullRequestPayload (lowItems : List Item) : Items :=
  fun i => ⟨(i.val : Int) + 1, itemNames i, lowItems.foldl setQuantity 0 i⟩

def SharedData.markPendingStockRequests (st : SharedData) (indices : List (Fin 6)) : SharedData :=
  { st with pendingStockRequest := fun i => st.pendingStockRequest i || indices.contains i }

def SharedData.clearPendingStockRequests (st : SharedData) (items : Items) : SharedData :=
  { st with
    pendingStockRequest := fun j =>
      st.pendingStockRequest j && (List.ofFn items).all fun item => item.quantity ≤ 0 ∨ item.itemId ≠ (j.val : Int) + 1 }

def SharedData.removePendingAck (st : SharedData) (msgId : String) : SharedData :=
  match (List.finRange maxPendingAcks).find? fun i => st.pendingAcks i = some msgId with
  | none => st
  | some i => { st with pendingAcks := Function.update st.pendingAcks i none }

def SharedData.sendAckToServer (st : SharedData) (msgTimestamp stamp : String) : Option SharedData :=
  (createAcknowledgmentMessage st.clientRole st.clientId server server msgTimestamp ok stamp).bind
    st.enqueuePendingMessage

def SharedData.answerAfter (st : SharedData) (msgTimestamp stamp : String) (apply : SharedData → SharedData)
    (answer : Option Message) (after : SharedData → SharedData) : Int × SharedData :=
  match st.sendAckToServer msgTimestamp stamp with
  | none => (-1, st)
  | some acked =>
    match answer.bind (apply acked).enqueuePendingMessage with
    | none => (-1, apply acked)
    | some answered => (0, after answered)

def shipmentNotice (clientId : String) (msg : Message) (stamp : String) : Option Message :=
  createItemsMessage .warehouseToServerShipmentNotice clientId msg.targetId msg.items.items 6 none stamp

def dispatchConfirmation (clientId : String) (msg : Message) (stamp : String) : Option Message :=
  createItemsMessage .hubToServerDispatchConfirmation clientId server msg.items.items 6 (some msg.timestamp) stamp

def receiptConfirmation (clientRole clientId : String) (msg : Message) (stamp : String) : Option Message :=
  createItemsMessage (if clientRole = hub then .hubToServerStockReceiptConfirmation
    else .warehouseToServerStockReceiptConfirmation) clientId server msg.items.items 6 (some msg.items.orderTimestamp) stamp

def SharedData.requestReplenishment (st : SharedData) (cfg : TimerConfig) (stamp : String) : SharedData :=
  let low := st.getLowStockReport cfg
  if low = [] then st
  else
    match (createItemsMessage .warehouseToServerReplenishRequest st.clientId server
      (buildFullRequestPayload (low.map Prod.fst)) 6 none stamp).bind st.enqueuePendingMessage with
    | none => st
    | some asked => asked.markPendingStockRequests (low.map Prod.snd)

def isAck (msgType : MsgType) : Prop := "ACK".toList <:+: msgType.text.toList

instance : DecidablePred isAck := fun _ => inferInstanceAs (Decidable (_ <:+: _))

def handleServerMessage (cfg : TimerConfig) (stamp : Nat → String) (msg : Message) (st : SharedData) :
    Int × SharedData :=
  let items := msg.items.items
  if isAck msg.msgType then
    match msg.payload with
    | .acknowledgment _ ackForTimestamp => (0, st.removePendingAck ackForTimestamp)
    | _ => (0, st.removePendingAck "")
  else
    match msg.msgType with
    | .serverToWarehouseAuthResponse | .serverToHubAuthResponse =>
      match st.sendAckToServer msg.timestamp (stamp 0) with
      | none => (-1, st)
      | some acked => (0, acked)
    | .serverToWarehouseInventoryUpdate | .serverToHubInventoryUpdate =>
      match (st.modifyInventory items .add).sendAckToServer msg.timestamp (stamp 0) with
      | none => (-1, st.modifyInventory items .add)
      | some acked => (0, acked)
    | .serverToWarehouseOrderToDispatchStockToHub =>
      st.answerAfter msg.timestamp (stamp 0) (fun st => st.modifyInventory items .reduce)
        (shipmentNotice st.clientId msg (stamp 1)) fun st => st.requestReplenishment cfg (stamp 2)
    | .serverToHubOrderToDispatchStock =>
      st.answerAfter msg.timestamp (stamp 0) (fun st => st.modifyInventory items .reduce)
        (dispatchConfirmation st.clientId msg (stamp 1)) id
    | .serverToWarehouseRestockNotice | .serverToHubIncomingStockNotice =>
      st.answerAfter msg.timestamp (stamp 0)
        (fun st => (st.modifyInventory items .add).clearPendingStockRequests items)
        (receiptConfirmation st.clientRole st.clientId msg (stamp 1)) id
    | _ => (0, st)

end Logistics.Client
