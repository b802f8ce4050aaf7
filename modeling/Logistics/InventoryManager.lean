import Logistics.Database

namespace Logistics.InventoryManager

open JsonManager Database

variable {α : Type}

structure StockRequestResult where
  transactionId : Option Nat
  success : Bool
  warehouseAssigned : Bool
  assignedWarehouseId : String
  requestingHubId : String
  items : Items
  itemCount : Nat

def updateClientInventory (clientId clientType : String) (q : Quantities) (timestamp : String) (thrown : α)
    (k : Int → Work α) : Work α :=
  if clientId = "" ∨ clientType = "" then k (-1)
  else .exec (.upsertInventory clientId clientType q timestamp) thrown fun _ => k 0

def createTransaction (transactionType : TransactionType) (destinationId destinationType : String) (q : Quantities)
    (orderTimestamp : String) (thrown : α) (k : Option Nat → Work α) : Work α :=
  if destinationId = "" ∨ destinationType = "" then k none
  else .exec (.insertTransaction transactionType destinationId destinationType q orderTimestamp) thrown fun id =>
    k (some id)

def getClientInventory (clientId clientType : String) (thrown : α) (k : Option Quantities → Work α) : Work α :=
  if clientId = "" ∨ clientType = "" then k none
  else
    let initialStock := if clientType = warehouse then initialStockWarehouse else initialStockHub
    .exec (.selectInventory clientId) thrown fun found =>
      match found with
      | some stock => k (some stock)
      | none => .exec (.insertInventory clientId clientType initialStock) thrown fun _ => k (some fun _ => initialStock)

def adjustClientInventory (clientId : String) (q : Quantities) (add : Bool) (thrown : α) (k : Int → Work α) : Work α :=
  if clientId = "" then k (-1) else .exec (.adjustInventory clientId q add) thrown fun _ => k 0

def getPendingTransactions (thrown : α) (k : List TransactionRow → Work α) : Work α :=
  .exec .selectPending thrown fun rows => k (rows.take maxPendingTransactions)

def itemCount (items : Items) : Nat := (List.ofFn items).countP fun item => item.itemId ≠ 0

def emptyResult (requestingHubId : String) (items : Items) (itemCount : Nat) : StockRequestResult :=
  ⟨none, false, false, "", requestingHubId, items, itemCount⟩

/-- The first part of `handle_inventory_update`. It has no handler of its own
for exceptions, so false stands for an exception that leaves the function. -/
def storeInventory (msg : Message) : Work Bool :=
  updateClientInventory msg.sourceId msg.sourceRole (extractQuantities msg.items.items) msg.timestamp false fun _ =>
    .commit true false

def handleStockRequest (msg : Message) : Work StockRequestResult :=
  let items := msg.items.items
  let q := extractQuantities items
  let result := emptyResult msg.sourceId items (itemCount items)
  adjustClientInventory msg.sourceId q false result fun _ =>
    createTransaction .stockRequest msg.sourceId msg.sourceRole q msg.timestamp result fun created =>
      match created with
      | none => .rollback result
      | some id =>
        let result := { result with transactionId := some id, success := true }
        let thrown := { result with success := false }
        .exec (.selectByStock warehouse q) thrown fun found =>
          match found with
          | none => .commit result thrown
          | some warehouseId =>
            if warehouseId = "" then .commit result thrown
            else
              .exec (.updateSource id warehouseId warehouse) thrown fun _ =>
                .exec (.updateAssigned id) thrown fun _ =>
                  let result := { result with warehouseAssigned := true, assignedWarehouseId := warehouseId }
                  .commit result { result with success := false }

def handleReplenishRequest (msg : Message) : Work StockRequestResult :=
  let items := msg.items.items
  let result := emptyResult "" items (itemCount items)
  createTransaction .replenish msg.sourceId msg.sourceRole (extractQuantities items) msg.timestamp result
    fun created =>
      match created with
      | none => .rollback result
      | some id =>
        .exec (.updateDispatched id msg.timestamp) result fun _ =>
          .commit { result with
            transactionId := some id, success := true, warehouseAssigned := true
            assignedWarehouseId := msg.sourceId } result

def handleReceiptConfirmation (msg : Message) : Work Int :=
  .exec (.selectTransactionId "" msg.sourceId .dispatched) (-1) fun found =>
    match found with
    | none =>
      .exec (.selectTransactionId "" msg.sourceId .completed) (-1) fun duplicate =>
        .rollback (if duplicate.isSome then 0 else -1)
    | some id =>
      adjustClientInventory msg.sourceId (extractQuantities msg.items.items) true (-1) fun rc =>
        if rc ≠ 0 then .rollback (-1)
        else .exec (.updateCompleted id msg.timestamp) (-1) fun _ => .commit 0 (-1)

def handleDispatchConfirmation (msg : Message) : Work (Int × Option Nat) :=
  .exec (.selectTransactionId msg.sourceId "" .assigned) (-1, none) fun found =>
    match found with
    | none =>
      .exec (.selectTransactionId msg.sourceId "" .dispatched) (-1, none) fun duplicate =>
        .rollback (if duplicate.isSome then 0 else -1, none)
    | some id =>
      adjustClientInventory msg.sourceId (extractQuantities msg.items.items) false (-1, none) fun rc =>
        if rc ≠ 0 then .rollback (-1, none)
        else .exec (.updateDispatched id msg.timestamp) (-1, none) fun _ => .commit (0, some id) (-1, none)

def handleShipmentNotice (msg : Message) : Work StockRequestResult :=
  let result := emptyResult "" (fun _ => .zero) 0
  let duplicateResult (id : Nat) : StockRequestResult := { result with transactionId := some id, success := true }
  .exec (.selectTransactionId msg.sourceId "" .assigned) result fun found =>
    match found with
    | none =>
      .exec (.selectTransactionId msg.sourceId "" .dispatched) result fun dispatched =>
        match dispatched with
        | some id => .rollback (duplicateResult id)
        | none =>
          .exec (.selectTransactionId msg.sourceId "" .completed) result fun completed =>
            match completed with
            | some id => .rollback (duplicateResult id)
            | none => .rollback result
    | some id =>
      let q := extractQuantities msg.items.items
      adjustClientInventory msg.sourceId q false result fun rc =>
        if rc ≠ 0 then .rollback result
        else
          .exec (.updateDispatched id msg.timestamp) result fun _ =>
            .exec (.selectTransaction id) result fun record =>
              match record with
              | none => .commit (duplicateResult id) result
              | some row =>
                .commit ⟨some id, true, true, msg.sourceId, row.destinationId, itemsOf (positiveItems q),
                  (positiveItems q).length⟩ result

def canFulfill (q stock : Quantities) : Prop := ∀ i, q i ≤ stock i

instance (q stock : Quantities) : Decidable (canFulfill q stock) := inferInstanceAs (Decidable (∀ _, _))

def orderResult (id : Nat) (warehouseAssigned : Bool) (assignedId requestingHubId : String) (q : Quantities) :
    StockRequestResult :=
  ⟨some id, true, warehouseAssigned, assignedId, requestingHubId, itemsOf (positiveItems q), (positiveItems q).length⟩

def assignFirst (warehouseId : String) (stock : Quantities) : List TransactionRow → Work (List StockRequestResult)
  | [] => .commit [] []
  | t :: rest =>
    if t.transactionType = .orderDispatch then assignFirst warehouseId stock rest
    else if canFulfill t.quantities stock then
      .exec (.updateSource t.transactionId warehouseId warehouse) [] fun _ =>
        .exec (.updateAssigned t.transactionId) [] fun _ =>
          let fulfilled := [orderResult t.transactionId true warehouseId t.destinationId t.quantities]
          .commit fulfilled fulfilled
    else assignFirst warehouseId stock rest

def processPendingOrders (warehouseId : String) : Work (List StockRequestResult) :=
  getClientInventory warehouseId warehouse [] fun stock =>
    match stock with
    | none => .rollback []
    | some stock =>
      getPendingTransactions [] fun pending =>
        if pending = [] then .rollback [] else assignFirst warehouseId stock pending

def assignAll (hubId : String) : List TransactionRow → Quantities → List StockRequestResult →
    Work (List StockRequestResult)
  | [], _, fulfilled => .commit fulfilled fulfilled
  | t :: rest, stock, fulfilled =>
    if t.transactionType ≠ .orderDispatch then assignAll hubId rest stock fulfilled
    else if canFulfill t.quantities stock then
      .exec (.updateSource t.transactionId hubId hub) fulfilled fun _ =>
        .exec (.updateAssigned t.transactionId) fulfilled fun _ =>
          assignAll hubId rest (stock - t.quantities)
            (fulfilled ++ [orderResult t.transactionId false hubId hubId t.quantities])
    else assignAll hubId rest stock fulfilled

def processPendingGatewayOrders (hubId : String) : Work (List StockRequestResult) :=
  getClientInventory hubId hub [] fun stock =>
    match stock with
    | none => .rollback []
    | some stock =>
      getPendingTransactions [] fun pending =>
        if pending = [] then .rollback [] else assignAll hubId pending stock []

def getClientInventoryMessage (clientId clientType : String) : Work (Option Quantities) :=
  getClientInventory clientId clientType none fun stock =>
    match stock with
    | none => .rollback none
    | some stock => .commit (some stock) none

/-- How one database transaction goes: its environment, and the number of the
statement or commit that fails, if one does. -/
structure Attempt where
  env : Env
  fault : Option Nat

def perform (a : Attempt) (work : Work α) (db : Db) : α × Db := work.run (exec a.env) Db.undo db a.fault db

def handleInventoryUpdate (attempt : Nat → Attempt) (msg : Message) (db : Db) : Option (List StockRequestResult) × Db :=
  let stored := perform (attempt 0) (storeInventory msg) db
  if stored.1 = false then (none, stored.2)
  else if msg.sourceRole = warehouse then
    let fulfilled := perform (attempt 1) (processPendingOrders msg.sourceId) stored.2
    (some fulfilled.1, fulfilled.2)
  else (some [], stored.2)

end Logistics.InventoryManager
