import Logistics.Deserialize
import Logistics.OrderMatching
import Logistics.PendingPasses

namespace Logistics.OrderCommits

open KeyedTable JsonManager Database InventoryManager InventorySpec PendingSpec MessageHandler List
open ApiGateway Deserialize Scenario OrderMatching

variable {db : Db} {a : Attempt} {orders : List StockRequestResult} {clientId : String}

def warehouseOrders (env : Env) (db : Db) (warehouseId : String) : List TransactionRow :=
  if warehouseId = "" then []
  else (firstFit (ensureInventory db env.now warehouseId warehouse).1 (pendingBatch env db)).toList

def hubOrders (env : Env) (db : Db) (hubId : String) : List TransactionRow :=
  if hubId = "" then [] else greedy (ensureInventory db env.now hubId hub).1 (pendingBatch env db)

theorem takesOn_warehouseOrders (env : Env) (db : Db) (warehouseId : String) : ∃ d,
    TakesOn env db warehouseId warehouse (assignFirst warehouseId) (warehouseOrders env db warehouseId)
      (fun t => orderResult t.transactionId true warehouseId t.destinationId t.quantities) d := by
  let stocked := ensureInventory db env.now warehouseId warehouse
  have htrans : stocked.2.transactions = db.transactions := ensureInventory_transactions _ _ _
  refine ⟨(firstFit stocked.1 (pendingBatch env db)).elim stocked.2 fun t =>
    stocked.2.assign t.transactionId warehouseId warehouse, by decide, fun h => if_pos h, ?_, fun _ => rfl, ?_, ?_⟩
  · rw [warehouseOrders]
    split
    · exact nil_subset _
    · intro t ht
      exact mem_of_find?_eq_some (Option.mem_toList.mp ht)
  · intro hne
    rw [warehouseOrders, if_neg hne]
    exact collects_assignFirst warehouseId _ _
  · intro t ht
    rw [warehouseOrders] at ht
    split at ht
    · cases ht
    · have hfit : firstFit stocked.1 (pendingBatch env db) = some t := Option.mem_toList.mp ht
      have hmem := (mem_pendingBatch (mem_of_find?_eq_some hfit)).1
      rw [hfit]
      exact mem_updateRows.mpr (.inr ⟨t, htrans ▸ hmem, rfl, rfl⟩)

theorem takesOn_hubOrders (env : Env) (db : Db) (hubId : String) : ∃ d,
    TakesOn env db hubId hub (fun stock pending => assignAll hubId pending stock []) (hubOrders env db hubId)
      (fun t => orderResult t.transactionId false hubId hubId t.quantities) d := by
  let stocked := ensureInventory db env.now hubId hub
  have htrans : stocked.2.transactions = db.transactions := ensureInventory_transactions _ _ _
  refine ⟨assignEach stocked.2 hubId (greedy stocked.1 (pendingBatch env db)), by decide, fun h => if_pos h, ?_,
    fun _ => rfl, ?_, ?_⟩
  · rw [hubOrders]
    split
    · exact nil_subset _
    · exact greedy_subset _ _
  · intro hne
    rw [hubOrders, if_neg hne]
    exact collects_assignAll hubId _ _ []
  · intro t ht
    rw [hubOrders] at ht
    split at ht
    · cases ht
    · have hnodup : ((greedy stocked.1 (pendingBatch env db)).map TransactionRow.transactionId).Nodup :=
        nodup_pendingBatch.sublist ((greedy_sublist _ _).map _)
      have hmem := (mem_pendingBatch (greedy_subset _ _ ht)).1
      exact assignedTo_mem_assignEach hnodup ht (htrans ▸ hmem)

/-- Each response is the order of a transaction that is committed as assigned to
the client it is addressed to. -/
def DispatchesCommitted (sent : List Response) (db : Db) : Prop :=
  ∀ r ∈ sent, ∃ username m id, r = .sendToUsername username m (some id) ∧ Committed db id username

theorem dispatchesCommitted_iff {msgType : MsgType} (hr : (prefixRoles msgType.text).isSome)
    (hlen : clientId.length < idSize) {stamp : Nat → String} {target : StockRequestResult → String}
    (htarget : ∀ r ∈ orders, target r = clientId) :
    DispatchesCommitted (dispatchOrders msgType stamp target orders) db ↔ OrdersCommitted clientId (orders, db) := by
  have huser : safeStrcpy credentialsSize clientId = clientId :=
    safeStrcpy_of_length_lt (hlen.trans_le (by decide))
  constructor
  · intro h r hr'
    obtain ⟨i, hi, rfl⟩ := mem_iff_getElem.mp hr'
    obtain ⟨m, hm, -⟩ := dispatchOrder_eq hr (stamp i) (target orders[i]) orders[i]
    have hmem : Response.sendToUsername (safeStrcpy credentialsSize (target orders[i])) m orders[i].transactionId ∈
        dispatchOrders msgType stamp target orders := by
      rw [dispatchOrders, reduceOption_mem_iff]
      exact mem_map.mpr ⟨(orders[i], i), mk_mem_zipIdx_iff_getElem?.mpr (by simp [hi]), hm⟩
    obtain ⟨username, m', id, he, hc⟩ := h _ hmem
    injection he with hu _ hid
    rw [htarget _ hr', huser] at hu
    exact ⟨id, hid, hu ▸ hc⟩
  · intro h x hx
    rw [dispatchOrders, reduceOption_mem_iff] at hx
    obtain ⟨⟨r, i⟩, hri, he⟩ := mem_map.mp hx
    have hmem : r ∈ orders := (mem_zipIdx' hri).2 ▸ getElem_mem _
    obtain ⟨m, hm, -⟩ := dispatchOrder_eq hr (stamp i) (target r) r
    obtain ⟨id, hid, hc⟩ := h r hmem
    rw [htarget r hmem, huser, hid] at hm
    exact ⟨clientId, m, id, Option.some.inj (he.symm.trans ((htarget r hmem).symm ▸ hm)), hc⟩

def WarehousePassFailsLate (a : Attempt) (db : Db) (warehouseId : String) : Prop :=
  FailsLate a.fault (leadStatements db warehouseId) (warehouseOrders a.env db warehouseId).length

def HubPassFailsLate (a : Attempt) (db : Db) (hubId : String) : Prop :=
  FailsLate a.fault (leadStatements db hubId) (hubOrders a.env db hubId).length

theorem ordersCommitted_processPendingOrders (a : Attempt) (db : Db) (warehouseId : String) :
    OrdersCommitted warehouseId (perform a (processPendingOrders warehouseId) db) ↔
      ¬ WarehousePassFailsLate a db warehouseId := by
  obtain ⟨d, h⟩ := takesOn_warehouseOrders a.env db warehouseId
  exact h.ordersCommitted_iff

theorem ordersCommitted_processPendingGatewayOrders (a : Attempt) (db : Db) (hubId : String) :
    OrdersCommitted hubId (perform a (processPendingGatewayOrders hubId) db) ↔ ¬ HubPassFailsLate a db hubId := by
  obtain ⟨d, h⟩ := takesOn_hubOrders a.env db hubId
  exact h.ordersCommitted_iff

variable {r : StockRequestResult}

theorem processPendingOrders_target {warehouseId : String}
    (hr : r ∈ (perform a (processPendingOrders warehouseId) db).1) : r.assignedWarehouseId = warehouseId := by
  obtain ⟨d, h⟩ := takesOn_warehouseOrders a.env db warehouseId
  obtain ⟨t, -, rfl⟩ := mem_map.mp (h.subset hr)
  rfl

theorem processPendingGatewayOrders_target {hubId : String}
    (hr : r ∈ (perform a (processPendingGatewayOrders hubId) db).1) : r.requestingHubId = hubId := by
  obtain ⟨d, h⟩ := takesOn_hubOrders a.env db hubId
  obtain ⟨t, -, rfl⟩ := mem_map.mp (h.subset hr)
  rfl

variable {msg : Message}

theorem dispatchesCommitted_pendingGatewayOrders (hlen : msg.sourceId.length < idSize) (stamp : Nat → String) :
    DispatchesCommitted (pendingGatewayOrders a stamp msg db).1 (pendingGatewayOrders a stamp msg db).2 ↔
      ¬ (msg.sourceRole = hub ∧ HubPassFailsLate a db msg.sourceId) := by
  rw [pendingGatewayOrders]
  split
  · next hrole =>
    rw [dispatchesCommitted_iff (by decide) hlen fun r => processPendingGatewayOrders_target,
      ordersCommitted_processPendingGatewayOrders]
    simp [hrole]
  · next hrole => exact iff_of_true (forall_mem_nil _) fun h => hrole h.1

def passResponses (o : Oracle) (sessionId : String) (msg : Message) (command : Command) (db : Db) : List Response :=
  if categorizeMessage msg.msgType = .invUpdate ∨ categorizeMessage msg.msgType = .receiptConfirm then
    (handleOtherMessage o sessionId msg command db).1.getD []
  else []

/-- The pass that the message starts fails late. It starts from the database as
the update or the receipt confirmation before it leaves it. -/
def PassFailsLate (o : Oracle) (msg : Message) (db : Db) : Prop :=
  match categorizeMessage msg.msgType with
  | .invUpdate =>
    let stored := (perform (o.attempt 0) (storeInventory msg) db).2
    ¬ StoreFails (o.attempt 0) msg ∧
      (msg.sourceRole = warehouse ∧ WarehousePassFailsLate (o.attempt 1) stored msg.sourceId ∨
        msg.sourceRole = hub ∧ HubPassFailsLate (o.attempt 2) stored msg.sourceId)
  | .receiptConfirm =>
    let confirmed := (perform (o.attempt 0) (handleReceiptConfirmation msg) db).2
    msg.sourceRole = hub ∧ HubPassFailsLate (o.attempt 1) confirmed msg.sourceId
  | _ => False

variable {o : Oracle}

theorem dispatchesCommitted_invUpdate (hcat : categorizeMessage msg.msgType = .invUpdate)
    (hlen : msg.sourceId.length < idSize) (sessionId : String) (command : Command) :
    DispatchesCommitted ((handleOtherMessage o sessionId msg command db).1.getD [])
      (handleOtherMessage o sessionId msg command db).2 ↔ ¬ PassFailsLate o msg db := by
  rw [handleOtherMessage, PassFailsLate, hcat]
  simp only [handleInventoryUpdate]
  by_cases hstore : StoreFails (o.attempt 0) msg
  · rw [if_pos ((perform_storeInventory_eq_false _ _ _).mpr hstore)]
    exact iff_of_true (forall_mem_nil _) fun h => h.1 hstore
  · rw [if_neg (mt (perform_storeInventory_eq_false _ _ _).mp hstore)]
    simp only [hstore, not_false_eq_true, true_and]
    by_cases hrole : msg.sourceRole = warehouse
    · simp only [hrole, if_true, pendingGatewayOrders, if_false, append_nil, Option.getD_some, true_and,
        show (warehouse = hub) = False by decide, false_and, or_false]
      rw [dispatchesCommitted_iff (by decide) hlen fun r => processPendingOrders_target]
      exact ordersCommitted_processPendingOrders _ _ _
    · simp only [hrole, if_false, false_and, false_or]
      exact dispatchesCommitted_pendingGatewayOrders hlen _

theorem dispatchesCommitted_passResponses (hlen : msg.sourceId.length < idSize) (sessionId : String) (command : Command)
    : DispatchesCommitted (passResponses o sessionId msg command db) (handleOtherMessage o sessionId msg command db).2 ↔
    ¬ PassFailsLate o msg db := by
  rw [passResponses]
  split
  · next hcat =>
    rcases hcat with hcat | hcat
    · exact dispatchesCommitted_invUpdate hcat hlen sessionId command
    · rw [handleOtherMessage, PassFailsLate, hcat]
      exact dispatchesCommitted_pendingGatewayOrders hlen _
  · next hcat =>
    refine iff_of_true (forall_mem_nil _) fun h => ?_
    rw [PassFailsLate] at h
    split at h
    · next hi => exact hcat (.inl hi)
    · next hr => exact hcat (.inr hr)
    · exact h

/-- The orders of a pass over the pending transactions are committed ones exactly when the
pass does not fail late. -/
theorem dispatched_orders_committed_iff (a : Attempt) (warehouseId hubId : String) (o : Oracle) (sessionId : String)
    (root : Json) (db : Db) : (OrdersCommitted warehouseId (perform a (processPendingOrders warehouseId) db) ↔
      ¬ WarehousePassFailsLate a db warehouseId) ∧
    (OrdersCommitted hubId (perform a (processPendingGatewayOrders hubId) db) ↔ ¬ HubPassFailsLate a db hubId) ∧
    (DispatchesCommitted (passResponses o sessionId (deserializeMessage root) (readCommand root) db)
        (handleOtherMessage o sessionId (deserializeMessage root) (readCommand root) db).2 ↔
      ¬ PassFailsLate o (deserializeMessage root) db) :=
  ⟨ordersCommitted_processPendingOrders a db warehouseId, ordersCommitted_processPendingGatewayOrders a db hubId,
    dispatchesCommitted_passResponses (deserializeMessage_sourceId_length root) sessionId (readCommand root)⟩

def pendingDb : Db := handled (itemsMessage .hubToServerStockRequest hub "h1" "2026-01-01" (oneItem 1 5)) emptyDb

def stockReport : Message := itemsMessage .warehouseToServerInventoryUpdate warehouse "w1" "2026-01-02" (oneItem 1 50)

def failingCommit : Oracle := { plainOracle with attempt := fun n => ⟨plainEnv, if n = 1 then some 4 else none⟩ }

theorem failed_commit_still_dispatches :
    ¬ OrdersCommitted "w1" (perform ⟨plainEnv, some 5⟩ (processPendingOrders "w1") pendingDb) ∧
    ¬ DispatchesCommitted (passResponses failingCommit "tcp_1" stockReport .unknown pendingDb)
      (handleOtherMessage failingCommit "tcp_1" stockReport .unknown pendingDb).2 := by
  constructor
  · rw [ordersCommitted_processPendingOrders, not_not]
    exact ⟨5, rfl, by decide, by decide⟩
  · rw [dispatchesCommitted_passResponses (by decide), not_not]
    refine ⟨?_, .inl ⟨rfl, 4, rfl, by decide, by decide⟩⟩
    rw [StoreFails]
    decide

end Logistics.OrderCommits
