import Logistics.OrderRuns
import Logistics.Retransmission

namespace Logistics.ReplenishmentCycle

open JsonManager Database MessageHandler OrderMatching Client List Option

structure World where
  db : Db
  hubClient : SharedData
  warehouseClient : SharedData

structure Course where
  requested : Oracle
  shipped : Oracle
  confirmed : Oracle
  hubSession : String
  warehouseSession : String
  cfg : TimerConfig
  requestStamp : String
  warehouseStamp : Nat → String
  hubStamp : Nat → String

def fullRequest (q : Quantities) : Items := fun i => ⟨(i.val : Int) + 1, itemNames i, q i⟩

def stockRequest (clientId : String) (q : Quantities) (stamp : String) : Option Message :=
  createItemsMessage .hubToServerStockRequest clientId server (fullRequest q) 6 none stamp

def received (sent : Option (List Response)) (clientId : String) (msgType : MsgType) : Option Message :=
  ((lettersOf sent).find? fun l => l.client = clientId ∧ l.message.msgType = msgType).map Letter.message

def sentSince (st st' : SharedData) (msgType : MsgType) : Option Message :=
  (st'.pendingMessages.drop st.pendingMessages.length).find? fun m => m.msgType = msgType

def requestLeg (x : Course) (q : Quantities) (w : World) : Option (Message × World) :=
  (stockRequest w.hubClient.clientId q x.requestStamp).bind fun request =>
    let handled := handleOtherMessage x.requested x.hubSession request.delivered .unknown w.db
    (received handled.1 w.warehouseClient.clientId .serverToWarehouseOrderToDispatchStockToHub).map fun order =>
      (order, { w with db := handled.2 })

def shipmentLeg (x : Course) (order : Message) (w : World) : Option (Message × World) :=
  let client := (handleServerMessage x.cfg x.warehouseStamp order w.warehouseClient).2
  (sentSince w.warehouseClient client .warehouseToServerShipmentNotice).bind fun notice =>
    let handled := handleOtherMessage x.shipped x.warehouseSession notice.delivered .unknown w.db
    (received handled.1 w.hubClient.clientId .serverToHubIncomingStockNotice).map fun incoming =>
      (incoming, ⟨handled.2, w.hubClient, client⟩)

def receiptLeg (x : Course) (incoming : Message) (w : World) : Option World :=
  let client := (handleServerMessage x.cfg x.hubStamp incoming w.hubClient).2
  (sentSince w.hubClient client .hubToServerStockReceiptConfirmation).map fun receipt =>
    ⟨(handleOtherMessage x.confirmed x.hubSession receipt.delivered .unknown w.db).2, client, w.warehouseClient⟩

/-- One complete cycle: each message is the one that handling the last one has
produced, and it is delivered once. None when one of them is not sent. -/
def cycle (x : Course) (q : Quantities) (w : World) : Option World :=
  (requestLeg x q w).bind fun ordered =>
    (shipmentLeg x ordered.1 ordered.2).bind fun shipped => receiptLeg x shipped.1 shipped.2

def stockRow (db : Db) (clientId : String) : Option Quantities := (db.inventory.find? clientId).map InventoryRow.stock

structure Agrees (w : World) : Prop where
  hub : stockRow w.db w.hubClient.clientId = some w.hubClient.inventoryItem
  warehouse : stockRow w.db w.warehouseClient.clientId = some w.warehouseClient.inventoryItem

def total (w : World) : Quantities :=
  (stockRow w.db w.hubClient.clientId).getD 0 + (stockRow w.db w.warehouseClient.clientId).getD 0

/-- No statement of the server fails, and PostgreSQL takes the receipt. -/
structure Smooth (x : Course) (q : Quantities) (w : World) : Prop where
  requested : (x.requested.attempt 0).fault = none
  shipped : (x.shipped.attempt 0).fault = none
  confirmed : (x.confirmed.attempt 0).fault = none
  timestamp : (x.confirmed.attempt 0).env.parseTimestamp (x.hubStamp 1) ≠ none
  fits : ∀ i, inInteger (max 0 (w.hubClient.inventoryItem i - q i) + q i)

/-- A hub and a warehouse with names that fit into the fields of a message, and
a request for what the warehouse holds. -/
structure Setting (q : Quantities) (w : World) : Prop where
  agrees : Agrees w
  hubRole : w.hubClient.clientRole = hub
  hubName : w.hubClient.clientId.length < idSize
  warehouseName : w.warehouseClient.clientId.length < idSize
  distinct : w.hubClient.clientId ≠ w.warehouseClient.clientId
  nonneg : ∀ i, 0 ≤ q i
  inStock : ∀ i, q i ≤ w.warehouseClient.inventoryItem i

section Payload

variable {items : Items} {q : Quantities} {list : List Item} {j : Fin 6}

structure Carries (items : Items) (q : Quantities) : Prop where
  quantities : extractQuantities items = q
  entries : ∀ j, entries items j = if q j = 0 then [] else [q j]

theorem transmitted_of_ids (h : ∀ i, (items i).itemId ≠ 0) : transmitted items = items := by
  have hall : (ofFn items).filter (fun item => item.itemId ≠ 0) = ofFn items := by
    apply filter_eq_self.mpr
    intro item hitem
    obtain ⟨i, rfl⟩ := mem_ofFn.mp hitem
    simpa using h i
  rw [transmitted, hall]
  funext i
  rw [itemsOf, getD_eq_getElem _ _ (by simp), List.getElem_ofFn]

theorem entries_itemsOf (h : list.length ≤ 6) : entries (itemsOf list) j =
    (list.filter fun item => item.itemId = (j.val : Int) + 1 ∧ item.quantity ≠ 0).map Item.quantity := by
  rw [entries, ofFn_itemsOf h, filter_append]
  have hzero : (replicate (6 - list.length) Item.zero).filter
      (fun item => item.itemId = (j.val : Int) + 1 ∧ item.quantity ≠ 0) = [] := by
    apply filter_eq_nil_iff.mpr
    intro item hitem
    rw [eq_of_mem_replicate hitem]
    simp [Item.zero]
  rw [hzero, append_nil]

theorem entries_map (chosen : List (Fin 6)) (hnodup : chosen.Nodup) :
    ((chosen.map fun i => (⟨(i.val : Int) + 1, itemNames i, q i⟩ : Item)).filter
      fun item => item.itemId = (j.val : Int) + 1 ∧ item.quantity ≠ 0).map Item.quantity =
      if j ∈ chosen ∧ q j ≠ 0 then [q j] else [] := by
  induction chosen with
  | nil => rfl
  | cons i rest ih =>
    rw [nodup_cons] at hnodup
    rw [map_cons]
    by_cases hij : j = i
    · subst hij
      by_cases hq : q j = 0
      · rw [filter_cons_of_neg (by simp [hq]), ih hnodup.2]
        simp [hq]
      · rw [filter_cons_of_pos (by simp [hq]), map_cons, ih hnodup.2]
        simp [hq, hnodup.1]
    · have hval : i.val ≠ j.val := fun h => hij (Fin.ext h.symm)
      rw [filter_cons_of_neg (by simpa using fun h => absurd h hval), ih hnodup.2]
      simp [hij]

theorem Carries.transmitted (h : Carries items q) : Carries (transmitted items) q := by
  refine ⟨(extractQuantities_transmitted items).trans h.quantities, fun j => ?_⟩
  rw [← h.entries j, JsonManager.transmitted, entries_itemsOf ((length_filter_le _ _).trans (by simp)),
    List.filter_filter, Client.entries]
  congr 1
  apply filter_congr
  intro item _
  by_cases hid : item.itemId = (j.val : Int) + 1
  · have hne : item.itemId ≠ 0 := by omega
    simp [hid]
    omega
  · simp [hid]

theorem transmitted_fullRequest (q : Quantities) : JsonManager.transmitted (fullRequest q) = fullRequest q := by
  apply transmitted_of_ids
  intro i
  change (i.val : Int) + 1 ≠ 0
  omega

theorem carries_fullRequest (q : Quantities) : Carries (fullRequest q) q := by
  have hlist : fullRequest q = itemsOf ((finRange 6).map fun i => ⟨(i.val : Int) + 1, itemNames i, q i⟩) := by
    funext i
    rw [itemsOf, getD_eq_getElem _ _ (by simp), getElem_map, getElem_finRange]
    rfl
  rw [hlist]
  refine ⟨?_, fun j => ?_⟩
  · rw [extractQuantities_itemsOf (by simp)]
    funext j
    rw [foldl_setQuantity_map, if_pos (mem_finRange j)]
  · rw [entries_itemsOf (by simp), entries_map _ (nodup_finRange 6)]
    by_cases hq : q j = 0 <;> simp [hq]

theorem carries_positiveItems (h : ∀ i, 0 ≤ q i) : Carries (itemsOf (positiveItems q)) q := by
  refine ⟨extractQuantities_positiveItems h, fun j => ?_⟩
  rw [entries_itemsOf (length_positiveItems q), positiveItems, entries_map _ ((nodup_finRange 6).filter _)]
  have hj := h j
  by_cases hq : q j = 0
  · simp [hq]
  · have hpos : 0 < q j := by omega
    simp [hq, hpos]

end Payload

open KeyedTable InventoryManager InventorySpec

variable {st st' : SharedData} {msg m order incoming : Message} {db d : Db} {x : Course} {q : Quantities}
  {w w' : World} {msgType : MsgType} {apply after : SharedData → SharedData} {change : Quantities → Quantities}

section Queue

variable {msgTimestamp stamp : String} {reply : Message}

structure Queued (st st' : SharedData) (new : List Message) : Prop where
  pendingMessages : st'.pendingMessages = st.pendingMessages ++ new
  inventoryItem : st'.inventoryItem = st.inventoryItem
  clientId : st'.clientId = st.clientId

theorem queued_enqueue (h : st.enqueuePendingMessage msg = some st') : Queued st st' [msg] := by
  rw [SharedData.enqueuePendingMessage] at h
  split at h
  · cases h
    exact ⟨rfl, rfl, rfl⟩
  · cases h

theorem queued_sendAck (h : st.sendAckToServer msgTimestamp stamp = some st') :
    ∃ ack, isAck ack.msgType ∧ Queued st st' [ack] := by
  obtain ⟨ack, hack, hq⟩ := bind_eq_some_iff.mp h
  refine ⟨ack, ?_, queued_enqueue hq⟩
  obtain ⟨t, ht, rfl⟩ := map_eq_some_iff.mp hack
  change isAck t
  repeat' split at ht
  all_goals cases ht
  all_goals decide

theorem queued_requestReplenishment (cfg : TimerConfig) (st : SharedData) (stamp : String) :
    ∃ new, Queued st (st.requestReplenishment cfg stamp) new := by
  simp only [SharedData.requestReplenishment]
  split
  · exact ⟨[], by simp, rfl, rfl⟩
  · split
    · exact ⟨[], by simp, rfl, rfl⟩
    · next asked h =>
      obtain ⟨request, -, hq⟩ := bind_eq_some_iff.mp h
      obtain ⟨hp, hi, hid⟩ := queued_enqueue hq
      exact ⟨[request], hp, hi, hid⟩

theorem answerAfter_sent (hl : Local apply change) (hmt : ¬ isAck msgType) (hreply : reply.msgType = msgType)
    (hafter : ∀ st, ∃ new, Queued st (after st) new)
    (h : sentSince st (st.answerAfter msgTimestamp stamp apply (some reply) after).2 msgType = some m) : m = reply ∧
    (st.answerAfter msgTimestamp stamp apply (some reply) after).2.inventoryItem = change st.inventoryItem ∧
    (st.answerAfter msgTimestamp stamp apply (some reply) after).2.clientId = st.clientId := by
  rw [SharedData.answerAfter] at h ⊢
  cases hack : st.sendAckToServer msgTimestamp stamp with
  | none => simp [hack, sentSince] at h
  | some acked =>
    obtain ⟨ack, hisAck, hp, hi, hid⟩ := queued_sendAck hack
    have hne : ack.msgType ≠ msgType := fun he => hmt (he ▸ hisAck)
    have happlied : (apply acked).pendingMessages = st.pendingMessages ++ [ack] := by rw [hl.pendingMessages, hp]
    simp only [hack, bind_some] at h ⊢
    cases henq : (apply acked).enqueuePendingMessage reply with
    | none => simp [henq, sentSince, happlied, hne] at h
    | some answered =>
      obtain ⟨hp', hi', hid'⟩ := queued_enqueue henq
      obtain ⟨new, hp'', hi'', hid''⟩ := hafter answered
      simp only [henq] at h ⊢
      have hqueue : (after answered).pendingMessages.drop st.pendingMessages.length = ack :: reply :: new := by
        rw [hp'', hp', happlied]
        simp
      rw [sentSince, hqueue, find?_cons_of_neg (by simpa using hne),
        find?_cons_of_pos (by simpa using hreply)] at h
      refine ⟨(some_injective _ h).symm, ?_, ?_⟩
      · rw [hi'', hi', hl.inventoryItem, hi]
      · rw [hid'', hid', hl.clientId, hid]

end Queue

variable {clientId : String}

theorem received_dispatchOrder {stamp target : String} {result : StockRequestResult}
    (hr : (prefixRoles msgType.text).isSome)
    (h : received (some (dispatchOrder msgType stamp target result).toList) clientId msgType = some m) :
    clientId = safeStrcpy credentialsSize target ∧ m.msgType = msgType ∧
      m.items.items = transmitted (firstItems result.items result.itemCount) := by
  obtain ⟨sent, hsent, htype, hitems⟩ := dispatchOrder_eq hr stamp target result
  obtain ⟨l, hl, rfl⟩ := map_eq_some_iff.mp h
  have hmem := mem_of_find?_eq_some hl
  have hclient := find?_some hl
  rw [hsent, lettersOf, mem_filterMap] at hmem
  obtain ⟨response, hresponse, hletter⟩ := hmem
  rw [mem_singleton.mp hresponse] at hletter
  cases hid : result.transactionId with
  | none =>
    rw [hid] at hletter
    cases hletter
  | some id =>
    simp only [hid, letterOf] at hletter
    split at hletter
    · cases hletter
      simp only [decide_eq_true_eq] at hclient
      exact ⟨hclient.1.symm, hclient.2, by rw [delivered_items, hitems]⟩
    · cases hletter

theorem stockRow_congr (h : d.inventory = db.inventory) (clientId : String) :
    stockRow d clientId = stockRow db clientId := by
  rw [stockRow, stockRow, h]

theorem stockRow_adjust {add : Bool} {now : Int} (h : db.adjustInventory clientId q add now = some d) (c : String) :
    stockRow d c = if c = clientId then (stockRow db c).map fun stock => adjusted add stock q else stockRow db c := by
  rw [Db.adjustInventory] at h
  split at h
  · cases h
    rw [stockRow, Table.find?_update]
    split
    · rw [stockRow, Option.map_map, Option.map_map]
      rfl
    · rfl
  · cases h

theorem handleOtherMessage_stockRequest (h : msg.msgType = .hubToServerStockRequest) (o : Oracle) (sessionId : String)
    (db : Db) : handleOtherMessage o sessionId msg .unknown db =
      let requested := perform (o.attempt 0) (handleStockRequest msg) db
      (some (if requested.1.success ∧ requested.1.warehouseAssigned ∧ requested.1.requestingHubId ≠ "" then
        (dispatchOrder .serverToWarehouseOrderToDispatchStockToHub (o.stamp 0) requested.1.assignedWarehouseId
          requested.1).toList else []), requested.2) := by
  simp only [handleOtherMessage, h, categorizeMessage]
  split <;> rfl

theorem handleOtherMessage_shipmentNotice (h : msg.msgType = .warehouseToServerShipmentNotice) (o : Oracle)
    (sessionId : String) (db : Db) : handleOtherMessage o sessionId msg .unknown db =
      let shipped := perform (o.attempt 0) (handleShipmentNotice msg) db
      (some (if shipped.1.success ∧ shipped.1.requestingHubId ≠ "" then
        (dispatchOrder .serverToHubIncomingStockNotice (o.stamp 0) shipped.1.requestingHubId shipped.1).toList
        else []), shipped.2) := by
  simp only [handleOtherMessage, h, categorizeMessage]
  split <;> rfl

variable {sessionId : String}

theorem served_stockRequest {o : Oracle} (hfault : (o.attempt 0).fault = none)
    (htype : msg.msgType = .hubToServerStockRequest) (hread : msg.items.items = fullRequest q)
    (h : received (handleOtherMessage o sessionId msg .unknown db).1 clientId
      .serverToWarehouseOrderToDispatchStockToHub = some order) :
    order.msgType = .serverToWarehouseOrderToDispatchStockToHub ∧ Carries order.items.items q ∧
      ∃ d, db.adjustInventory msg.sourceId q false (o.attempt 0).env.now = some d ∧
        (handleOtherMessage o sessionId msg .unknown db).2.inventory = d.inventory := by
  rw [handleOtherMessage_stockRequest htype] at h ⊢
  simp only at h ⊢
  rcases perform_of_no_fault hfault (handleStockRequest msg) db with ⟨hnone, -⟩ | hc
  · have hfail := perform_of_aborts hfault aborts_handleStockRequest hnone
    simp only [hfail, Bool.false_eq_true, false_and, if_false] at h
    cases h
  · generalize perform (o.attempt 0) (handleStockRequest msg) db = y at hc h ⊢
    obtain ⟨-, -, d, ts, found, hd, -, -, hresult, hdb⟩ := commits_handleStockRequest_eq_some
      (show _ = some (y.1, y.2) from hc)
    rw [hread, (carries_fullRequest q).quantities] at hd
    split at h
    · obtain ⟨-, hmt, hi⟩ := received_dispatchOrder (by decide) h
      refine ⟨hmt, ?_, d, hd, by rw [hdb]; rfl⟩
      rw [hi, hresult]
      change Carries (transmitted (firstItems msg.items.items (itemCount msg.items.items))) q
      rw [hread]
      exact (carries_fullRequest q).transmitted
    · cases h

theorem requestLeg_spec (hs : Setting q w) (hfault : (x.requested.attempt 0).fault = none)
    (h : requestLeg x q w = some (order, w')) : order.msgType = .serverToWarehouseOrderToDispatchStockToHub ∧
    Carries order.items.items q ∧ w'.hubClient = w.hubClient ∧ w'.warehouseClient = w.warehouseClient ∧ ∃ d,
    w.db.adjustInventory w.hubClient.clientId q false (x.requested.attempt 0).env.now = some d ∧ w'.db.inventory =
    d.inventory := by
  obtain ⟨request, hrequest, h⟩ := bind_eq_some_iff.mp h
  obtain ⟨m, hm, htype, hsource, -, hitems⟩ := createItemsMessage_delivered
    (show prefixRoles MsgType.hubToServerStockRequest.text = some (hub, server) by decide) hs.hubName server
    (fullRequest q) none x.requestStamp
  cases hm.symm.trans hrequest
  rw [transmitted_fullRequest] at hitems
  obtain ⟨sent, hsent, he⟩ := map_eq_some_iff.mp h
  cases he
  obtain ⟨hmt, hcarries, d, hd, hinventory⟩ := served_stockRequest hfault ((delivered_msgType _).trans htype) hitems
    hsent
  rw [hsource] at hd
  exact ⟨hmt, hcarries, rfl, rfl, d, hd, hinventory⟩

theorem aborts_handleShipmentNotice : (handleShipmentNotice msg).Aborts fun r => r.requestingHubId = "" := by
  refine ⟨rfl, fun found => ?_⟩
  cases found with
  | none =>
    refine ⟨rfl, fun dispatched => ?_⟩
    cases dispatched with
    | some id => rfl
    | none =>
      refine ⟨rfl, fun completed => ?_⟩
      cases completed <;> rfl
  | some id =>
    refine aborts_adjustClientInventory ?_ fun rc => ?_
    · rfl
    · split
      · rfl
      · refine ⟨rfl, fun _ => ⟨rfl, fun record => ?_⟩⟩
        cases record <;> trivial

theorem served_shipmentNotice {o : Oracle} (hfault : (o.attempt 0).fault = none)
    (htype : msg.msgType = .warehouseToServerShipmentNotice) (hread : Carries msg.items.items q)
    (hnonneg : ∀ i, 0 ≤ q i) (hname : clientId.length < idSize)
    (h : received (handleOtherMessage o sessionId msg .unknown db).1 clientId .serverToHubIncomingStockNotice =
      some incoming) : incoming.msgType = .serverToHubIncomingStockNotice ∧ Carries incoming.items.items q ∧
      (∃ d, db.adjustInventory msg.sourceId q false (o.attempt 0).env.now = some d ∧
        (handleOtherMessage o sessionId msg .unknown db).2.inventory = d.inventory) ∧
      clientId ≠ "" ∧ ∃ t ∈ (handleOtherMessage o sessionId msg .unknown db).2.transactions.rows,
        t.status = .dispatched ∧ t.destinationId = clientId := by
  rw [handleOtherMessage_shipmentNotice htype] at h ⊢
  simp only at h ⊢
  rcases perform_of_no_fault hfault (handleShipmentNotice msg) db with ⟨hnone, -⟩ | hc
  · have hfail := perform_of_aborts hfault aborts_handleShipmentNotice hnone
    simp only [hfail, ne_eq, not_true_eq_false, and_false, if_false] at h
    cases h
  · generalize perform (o.attempt 0) (handleShipmentNotice msg) db = y at hc h ⊢
    rw [commits_handleShipmentNotice, settling_eq_some, hread.quantities] at hc
    obtain ⟨-, id, d, ts, hfound, hd, -, rfl⟩ := hc
    split at h
    · next hsuccess =>
      obtain ⟨hclient, hmt, hi⟩ := received_dispatchOrder (by decide) h
      obtain ⟨t, ht, rfl, -⟩ := findNewest_eq_some hfound
      have hfind := Table.find?_eq_some.mpr ⟨ht, rfl⟩
      simp only [shipmentResult, hfind, elim_some] at hclient hsuccess
      have hdest : clientId = t.destinationId := by
        rw [hclient]
        apply safeStrcpy_of_not_full
        rw [← hclient]
        exact hname.trans (by decide)
      refine ⟨hmt, ?_, ⟨d, hd, rfl⟩, ?_, ?_⟩
      · rw [hi]
        change Carries (transmitted (firstItems (itemsOf (positiveItems (extractQuantities _)))
          (positiveItems (extractQuantities _)).length)) q
        rw [hread.quantities, firstItems_itemsOf]
        exact (carries_positiveItems hnonneg).transmitted
      · rw [hdest]
        exact hsuccess.2
      · refine ⟨{ t with status := .dispatched, dispatchTimestamp := some ts }, ?_, rfl, hdest.symm⟩
        apply mem_updateRows.mpr
        right
        exact ⟨t, by rwa [(adjustInventory_transactions hd).1], rfl, rfl⟩
    · cases h

theorem shipmentLeg_spec (hnames : w.hubClient.clientId.length < idSize ∧ w.warehouseClient.clientId.length < idSize)
    (hnonneg : ∀ i, 0 ≤ q i) (hfault : (x.shipped.attempt 0).fault = none)
    (hmt : order.msgType = .serverToWarehouseOrderToDispatchStockToHub) (hcarries : Carries order.items.items q)
    (h : shipmentLeg x order w = some (incoming, w')) :
    incoming.msgType = .serverToHubIncomingStockNotice ∧ Carries incoming.items.items q ∧
      w'.hubClient = w.hubClient ∧ w'.warehouseClient.clientId = w.warehouseClient.clientId ∧
      (∀ i, w'.warehouseClient.inventoryItem i =
        ClampedStock.withdrawAll (w.warehouseClient.inventoryItem i) (entries order.items.items i)) ∧
      (∃ d, w.db.adjustInventory w.warehouseClient.clientId q false (x.shipped.attempt 0).env.now = some d ∧
        w'.db.inventory = d.inventory) ∧ w.hubClient.clientId ≠ "" ∧
      ∃ t ∈ w'.db.transactions.rows, t.status = .dispatched ∧ t.destinationId = w.hubClient.clientId := by
  obtain ⟨reply, hreply, htype, hsource, -, hitems⟩ := createItemsMessage_delivered
    (show prefixRoles MsgType.warehouseToServerShipmentNotice.text = some (warehouse, server) by decide)
    hnames.2 order.targetId order.items.items none (x.warehouseStamp 1)
  have hread : Carries reply.delivered.items.items q := by
    rw [hitems]
    exact hcarries.transmitted
  have hanswer : shipmentNotice w.warehouseClient.clientId order (x.warehouseStamp 1) = some reply := hreply
  rw [shipmentLeg, handleServerMessage_warehouseOrder hmt, hanswer] at h
  obtain ⟨notice, hnotice, h⟩ := bind_eq_some_iff.mp h
  obtain ⟨rfl, hinventory, hclient⟩ := answerAfter_sent (local_dispatch order.items.items) (by decide) htype
    (fun st => queued_requestReplenishment x.cfg st _) hnotice
  obtain ⟨sent, hsent, he⟩ := map_eq_some_iff.mp h
  cases he
  obtain ⟨hmt', hsentCarries, ⟨d, hd, hrows⟩, hne, hopen⟩ := served_shipmentNotice hfault
    ((delivered_msgType _).trans htype) hread hnonneg hnames.1 hsent
  rw [hsource] at hd
  exact ⟨hmt', hsentCarries, rfl, hclient, fun i => congrFun hinventory i, ⟨d, hd, hrows⟩, hne, hopen⟩

end Logistics.ReplenishmentCycle
