import Mathlib.Data.List.ReduceOption
import Logistics.ApiGateway

namespace Logistics.MessageHandler

open JsonManager Database InventoryManager ApiGateway List Option

inductive MessageCategory
  | authRequest
  | ackMessage
  | keepaliveMsg
  | invUpdate
  | stockReq
  | receiptConfirm
  | dispatchConfirm
  | dispatchNotice
  | replenishReq
  | emergencyAlert
  | cliCommand
  | gatewayCommand
  | other
  deriving DecidableEq, Repr

def categorizeMessage : MsgType → MessageCategory
  | .hubToServerAuthRequest | .warehouseToServerAuthRequest | .cliToServerAuthRequest
  | .gatewayToServerAuthRequest => .authRequest
  | .hubToServerAck | .warehouseToServerAck | .gatewayToServerAck => .ackMessage
  | .hubToServerKeepalive | .warehouseToServerKeepalive | .gatewayToServerKeepalive => .keepaliveMsg
  | .hubToServerInventoryUpdate | .warehouseToServerInventoryUpdate => .invUpdate
  | .hubToServerStockRequest => .stockReq
  | .hubToServerStockReceiptConfirmation | .warehouseToServerStockReceiptConfirmation => .receiptConfirm
  | .hubToServerDispatchConfirmation => .dispatchConfirm
  | .warehouseToServerShipmentNotice => .dispatchNotice
  | .warehouseToServerReplenishRequest => .replenishReq
  | .hubToServerEmergencyAlert | .warehouseToServerEmergencyAlert => .emergencyAlert
  | .cliToServerAdminCommand => .cliCommand
  | .gatewayToServerCommand => .gatewayCommand
  | _ => .other

/-- The slots a worker pushes for the reactor. The message stands for its JSON
text. The transaction of `sendToUsername` is not in the slot; it is the one the
order or notice is about. -/
inductive Response
  | send (sessionId : String) (msg : Message)
  | sendToUsername (username : String) (msg : Message) (transactionId : Option Nat)
  | startAckTimer (sessionId : String) (msg : Message)
  | broadcast (msg : Message)
  | adminReply (sessionId : String)
  | gatewayReply (sessionId : String) (reply : Reply)
  | mqttPublishRoute (transactionId : Nat)

def makeSendToUsername (username : String) (msg : Message) (transactionId : Option Nat) : Response :=
  .sendToUsername (safeStrcpy credentialsSize username) msg transactionId

/-- The outcome of everything a worker does not decide itself while it handles
one message: its database transactions in the order it starts them, the texts of
`generate_timestamp`, and whether the plugins are loaded and connected. -/
structure Oracle where
  attempt : Nat → Attempt
  stamp : Nat → String
  adminLoaded : Bool
  gatewayLoaded : Bool
  gatewayConnected : Bool

def dispatchOrder (msgType : MsgType) (stamp targetId : String) (order : StockRequestResult) : Option Response :=
  (createItemsMessage msgType server targetId order.items order.itemCount none stamp).map fun msg =>
    makeSendToUsername targetId msg order.transactionId

def dispatchOrders (msgType : MsgType) (stamp : Nat → String) (target : StockRequestResult → String)
    (orders : List StockRequestResult) : List Response :=
  (orders.zipIdx.map fun x => dispatchOrder msgType (stamp x.2) (target x.1) x.1).reduceOption

def pendingGatewayOrders (a : Attempt) (stamp : Nat → String) (msg : Message) (db : Db) : List Response × Db :=
  if msg.sourceRole = hub then
    let fulfilled := perform a (processPendingGatewayOrders msg.sourceId) db
    (dispatchOrders .serverToHubOrderToDispatchStock stamp StockRequestResult.requestingHubId fulfilled.1, fulfilled.2)
  else ([], db)

def orderDispatched (msg : Message) (id : Nat) : Message where
  msgType := .serverToGatewayOrderDispatched
  sourceRole := server
  sourceId := server
  targetRole := gateway
  targetId := ""
  timestamp := msg.timestamp
  payload := .genericArgs (toString id)
  checksum := ""

def serverEmergency (emergencyCode : Int) (instructions stamp : String) : Message :=
  createMessage .serverToAllClientsEmergencyAlert server "SERVER" cli "ALL"
    (.serverEmergency emergencyCode (safeStrcpy 100 instructions)) stamp

/-- None in the first component is an exception that leaves the handler. -/
def handleOtherMessage (o : Oracle) (sessionId : String) (msg : Message) (command : Command) (db : Db) :
    Option (List Response) × Db :=
  match categorizeMessage msg.msgType with
  | .invUpdate =>
    let updated := handleInventoryUpdate o.attempt msg db
    match updated.1 with
    | none => (none, updated.2)
    | some orders =>
      let sent := dispatchOrders .serverToWarehouseOrderToDispatchStockToHub o.stamp
        StockRequestResult.assignedWarehouseId orders
      let more := pendingGatewayOrders (o.attempt 2) (fun i => o.stamp (orders.length + i)) msg updated.2
      (some (sent ++ more.1), more.2)
  | .stockReq =>
    let requested := perform (o.attempt 0) (handleStockRequest msg) db
    let result := requested.1
    if result.success ∧ result.warehouseAssigned ∧ result.requestingHubId ≠ "" then
      (some (dispatchOrder .serverToWarehouseOrderToDispatchStockToHub (o.stamp 0) result.assignedWarehouseId
        result).toList, requested.2)
    else (some [], requested.2)
  | .receiptConfirm =>
    let confirmed := perform (o.attempt 0) (handleReceiptConfirmation msg) db
    let more := pendingGatewayOrders (o.attempt 1) o.stamp msg confirmed.2
    (some more.1, more.2)
  | .dispatchConfirm =>
    let confirmed := perform (o.attempt 0) (handleDispatchConfirmation msg) db
    match confirmed.1 with
    | (0, some id) =>
      (some [makeSendToUsername "api_gateway" (orderDispatched msg id) (some id), .mqttPublishRoute id], confirmed.2)
    | _ => (some [], confirmed.2)
  | .dispatchNotice =>
    let shipped := perform (o.attempt 0) (handleShipmentNotice msg) db
    let result := shipped.1
    if result.success ∧ result.requestingHubId ≠ "" then
      (some (dispatchOrder .serverToHubIncomingStockNotice (o.stamp 0) result.requestingHubId result).toList, shipped.2)
    else (some [], shipped.2)
  | .replenishReq =>
    let replenished := perform (o.attempt 0) (handleReplenishRequest msg) db
    let result := replenished.1
    if result.success then
      match createItemsMessage .serverToWarehouseRestockNotice server result.assignedWarehouseId result.items
        result.itemCount none (o.stamp 0) with
      | none => (some [], replenished.2)
      | some notice => (some [.send sessionId notice, .startAckTimer sessionId notice], replenished.2)
    else (some [], replenished.2)
  | .emergencyAlert =>
    match msg.payload with
    | .clientEmergency code type => (some [.broadcast (serverEmergency code type (o.stamp 0))], db)
    | _ => (some [.broadcast (serverEmergency 0 "" (o.stamp 0))], db)
  | .cliCommand => (some (if o.adminLoaded then [.adminReply sessionId] else []), db)
  | .gatewayCommand =>
    if o.gatewayLoaded then
      let handled := apiGatewayHandle o.attempt o.gatewayConnected (o.stamp 0) command db
      let forwarded := handled.2.1.map fun side =>
        makeSendToUsername side.targetUsername side.message (some side.transactionId)
      (some (.gatewayReply sessionId handled.1 :: forwarded.toList), handled.2.2)
    else (some [], db)
  | .authRequest | .ackMessage | .keepaliveMsg | .other => (some [], db)

variable {Q : Response → Prop} {a : Attempt} {o : Oracle} {msg : Message} {db : Db} {msgType : MsgType}

section Sent

variable (h : ∀ username msg transactionId, Q (.sendToUsername username msg transactionId))

include h

theorem forall_dispatchOrder {stamp targetId : String} {order : StockRequestResult} :
    ∀ r ∈ (dispatchOrder msgType stamp targetId order).toList, Q r := by
  intro r hr
  obtain ⟨m, -, rfl⟩ := map_eq_some_iff.mp (mem_toList.mp hr)
  exact h _ m _

variable {stamp : Nat → String}

theorem forall_dispatchOrders {target : StockRequestResult → String} {orders : List StockRequestResult} :
    ∀ r ∈ dispatchOrders msgType stamp target orders, Q r := by
  intro r hr
  rw [dispatchOrders, reduceOption_mem_iff] at hr
  obtain ⟨x, -, hx⟩ := mem_map.mp hr
  exact forall_dispatchOrder h r (mem_toList.mpr hx)

theorem forall_pendingGatewayOrders : ∀ r ∈ (pendingGatewayOrders a stamp msg db).1, Q r := by
  rw [pendingGatewayOrders]
  split
  · exact forall_dispatchOrders h
  · exact forall_mem_nil _

end Sent

def requestOrder (stamp : String) (result : StockRequestResult) : List Response :=
  if result.success ∧ result.warehouseAssigned ∧ result.requestingHubId ≠ "" then
    (dispatchOrder .serverToWarehouseOrderToDispatchStockToHub stamp result.assignedWarehouseId result).toList
  else []

def forwarded (side : Option SideEffect) : List Response :=
  (side.map fun side => makeSendToUsername side.targetUsername side.message (some side.transactionId)).toList

section Effects

variable (o : Oracle) (s : String) (msg : Message) (c : MessageCategory)

inductive Aside : Response → Prop
  | send (notice : Message) : Aside (.send s notice)
  | startAckTimer (notice : Message) : Aside (.startAckTimer s notice)
  | broadcast (alert : Message) : Aside (.broadcast alert)
  | route (id : Nat) : Aside (.mqttPublishRoute id)
  | admin (hc : c = .cliCommand) : Aside (.adminReply s)
  | told (hc : c = .dispatchConfirm ∨ c = .dispatchNotice) (username : String) (notice : Message) (id : Option Nat) :
      Aside (.sendToUsername username notice id)

/-- What a message of category `c` does to the database, one transaction after the other, and
which responses come of it. -/
inductive Handles : Db → Db → List Response → Prop
  | none {db : Db} : Handles db db []
  | aside {db db' : Db} {sent : List Response} (h : Handles db db' []) (hsent : ∀ r ∈ sent, Aside s c r) :
      Handles db db' sent
  | reply {db db' : Db} {sent : List Response} (hc : c = .gatewayCommand) (reply : Reply) (h : Handles db db' sent) :
      Handles db db' (.gatewayReply s reply :: sent)
  | after {db d db' : Db} {sent more : List Response} (hc : c = .invUpdate ∨ c = .receiptConfirm)
      (h : Handles db d sent) (h' : Handles d db' more) : Handles db db' (sent ++ more)
  | store {db : Db} (hc : c = .invUpdate) : Handles db (perform (o.attempt 0) (storeInventory msg) db).2 []
  | pendingOrders {db : Db} (hc : c = .invUpdate) (hrole : msg.sourceRole = warehouse) (stamp : Nat → String) :
      Handles db (perform (o.attempt 1) (processPendingOrders msg.sourceId) db).2
        (dispatchOrders .serverToWarehouseOrderToDispatchStockToHub stamp StockRequestResult.assignedWarehouseId
          (perform (o.attempt 1) (processPendingOrders msg.sourceId) db).1)
  | gatewayOrders {db : Db} (hc : c = .invUpdate ∨ c = .receiptConfirm) (i : Nat) (stamp : Nat → String) :
      Handles db (pendingGatewayOrders (o.attempt i) stamp msg db).2 (pendingGatewayOrders (o.attempt i) stamp msg db).1
  | stockRequest {db : Db} (hc : c = .stockReq) : Handles db (perform (o.attempt 0) (handleStockRequest msg) db).2
      (requestOrder (o.stamp 0) (perform (o.attempt 0) (handleStockRequest msg) db).1)
  | receipt {db : Db} (hc : c = .receiptConfirm) :
      Handles db (perform (o.attempt 0) (handleReceiptConfirmation msg) db).2 []
  | dispatch {db : Db} (hc : c = .dispatchConfirm) :
      Handles db (perform (o.attempt 0) (handleDispatchConfirmation msg) db).2 []
  | notice {db : Db} (hc : c = .dispatchNotice) : Handles db (perform (o.attempt 0) (handleShipmentNotice msg) db).2 []
  | replenish {db : Db} (hc : c = .replenishReq) :
      Handles db (perform (o.attempt 0) (handleReplenishRequest msg) db).2 []
  | create {db : Db} (hc : c = .gatewayCommand) (items : Option (List (Option Int × Option Int))) :
      Handles db (cmdCreateShipment o.attempt o.gatewayConnected (o.stamp 0) items db).2.2
        (forwarded (cmdCreateShipment o.attempt o.gatewayConnected (o.stamp 0) items db).2.1)
  | status {db : Db} (hc : c = .gatewayCommand) (id : Nat) :
      Handles db (perform (o.attempt 0) (findStatus id) db).2 []

end Effects

variable {s : String} {c : MessageCategory}

theorem handles_handleInventoryUpdate (hc : c = .invUpdate) (stamp : Nat → String) :
    Handles o s msg c db (handleInventoryUpdate o.attempt msg db).2
      (dispatchOrders .serverToWarehouseOrderToDispatchStockToHub stamp StockRequestResult.assignedWarehouseId
        ((handleInventoryUpdate o.attempt msg db).1.getD [])) := by
  have hstored : Handles o s msg c db (perform (o.attempt 0) (storeInventory msg) db).2 [] := .store hc
  simp only [handleInventoryUpdate]
  split
  · exact hstored
  · split
    · next hrole => exact .after (.inl hc) hstored (.pendingOrders hc hrole stamp)
    · exact hstored

theorem handles_apiGatewayHandle (hc : c = .gatewayCommand) :
    Handles o s msg c db (apiGatewayHandle o.attempt o.gatewayConnected (o.stamp 0) command db).2.2
      (forwarded (apiGatewayHandle o.attempt o.gatewayConnected (o.stamp 0) command db).2.1) := by
  cases command with
  | ping | unknown => exact .none
  | createNewOrder items => exact .create hc items
  | getShipmentStatus args =>
    simp only [apiGatewayHandle, cmdGetShipmentStatus]
    split
    · exact .none
    · split
      · exact .none
      · exact .none
      · split
        · exact .none
        · split <;> exact .status hc _

theorem handles_handleOtherMessage (o : Oracle) (s : String) (msg : Message) (command : Command) (db : Db) :
    Handles o s msg (categorizeMessage msg.msgType) db (handleOtherMessage o s msg command db).2
      ((handleOtherMessage o s msg command db).1.getD []) := by
  simp only [handleOtherMessage]
  cases categorizeMessage msg.msgType with
  | invUpdate =>
    have hupdated : Handles o s msg .invUpdate db (handleInventoryUpdate o.attempt msg db).2 _ :=
      handles_handleInventoryUpdate rfl o.stamp
    cases horders : (handleInventoryUpdate o.attempt msg db).1 with
    | none =>
      rw [horders] at hupdated
      exact hupdated
    | some orders =>
      rw [horders] at hupdated
      exact .after (.inl rfl) hupdated (.gatewayOrders (.inl rfl) 2 _)
  | stockReq =>
    have hrequested : Handles o s msg .stockReq db (perform (o.attempt 0) (handleStockRequest msg) db).2 _ :=
      .stockRequest rfl
    rw [requestOrder] at hrequested
    simp only
    split
    · next hif => rwa [if_pos hif] at hrequested
    · next hif => rwa [if_neg hif] at hrequested
  | receiptConfirm => exact .after (.inr rfl) (.receipt rfl) (.gatewayOrders (.inr rfl) 1 o.stamp)
  | dispatchConfirm =>
    simp only
    split
    · exact .aside (.dispatch rfl) (forall_mem_cons.mpr ⟨.told (.inl rfl) _ _ _, forall_mem_singleton.mpr (.route _)⟩)
    · exact .dispatch rfl
  | dispatchNotice =>
    simp only
    split
    · rw [getD_some]
      exact .aside (.notice rfl) (forall_dispatchOrder fun _ _ _ => .told (.inr rfl) _ _ _)
    · exact .notice rfl
  | replenishReq =>
    simp only
    split
    · split
      · exact .replenish rfl
      · exact .aside (.replenish rfl) (forall_mem_cons.mpr ⟨.send _, forall_mem_singleton.mpr (.startAckTimer _)⟩)
    · exact .replenish rfl
  | emergencyAlert =>
    simp only
    split <;> exact .aside .none (forall_mem_singleton.mpr (.broadcast _))
  | cliCommand =>
    simp only
    split
    · exact .aside .none (forall_mem_singleton.mpr (.admin rfl))
    · exact .none
  | gatewayCommand =>
    simp only
    split
    · exact .reply rfl _ (handles_apiGatewayHandle rfl)
    · exact .none
  | authRequest | ackMessage | keepaliveMsg | other => exact .none

/-- What the responses to a message can be: orders and notices by username, a
restock notice to the session itself, a broadcast, a route, and the replies of the
two plugins to their own messages. -/
theorem Handles.forall_sent {db' : Db} {sent : List Response} (h : Handles o s msg c db db' sent)
    (horder : ∀ username msg transactionId, Q (.sendToUsername username msg transactionId))
    (hsend : ∀ msg, Q (.send s msg)) (hstart : ∀ msg, Q (.startAckTimer s msg))
    (hbroadcast : ∀ msg, Q (.broadcast msg)) (hroute : ∀ id, Q (.mqttPublishRoute id))
    (hadmin : c = .cliCommand → Q (.adminReply s))
    (hgateway : c = .gatewayCommand → ∀ reply, Q (.gatewayReply s reply)) : ∀ r ∈ sent, Q r := by
  induction h with
  | none | store | receipt | dispatch | notice | replenish | status => exact forall_mem_nil _
  | aside _ hsent =>
    intro r hr
    cases hsent r hr with
    | send => exact hsend _
    | startAckTimer => exact hstart _
    | broadcast => exact hbroadcast _
    | route => exact hroute _
    | admin hc => exact hadmin hc
    | told => exact horder _ _ _
  | reply hc reply _ ih => exact forall_mem_cons.mpr ⟨hgateway hc reply, ih⟩
  | after _ _ _ ih ih' => exact forall_mem_append.mpr ⟨ih, ih'⟩
  | pendingOrders => exact forall_dispatchOrders horder
  | gatewayOrders => exact forall_pendingGatewayOrders horder
  | stockRequest =>
    rw [requestOrder]
    split
    · exact forall_dispatchOrder horder
    · exact forall_mem_nil _
  | create =>
    intro r hr
    obtain ⟨side, -, rfl⟩ := map_eq_some_iff.mp (mem_toList.mp hr)
    exact horder _ _ _

end Logistics.MessageHandler
