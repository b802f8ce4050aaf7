import Logistics.ReplenishmentCycle
import Logistics.HandlerAtomicity
import Logistics.LastWins

namespace Logistics.OrderAmounts

open JsonManager InventoryManager Client LastWins List

variable {items : Items} {list : List Item}

def about (list : List Item) (j : Fin 6) : List Int :=
  (list.filter fun item => item.itemId = (j.val : Int) + 1).map Item.quantity

def Agrees (items : Items) : Prop :=
  ∀ j, (about ((ofFn items).take (itemCount items)) j).sum = (about (ofFn items) j).getLastD 0

instance : DecidablePred Agrees := fun _ => inferInstanceAs (Decidable (∀ _, _ = _))

def Front (items : Items) : Prop := ∀ i i', i < i' → (items i').itemId ≠ 0 → (items i).itemId ≠ 0

theorem extractQuantities_apply (items : Items) (j : Fin 6) :
    extractQuantities items j = (about (ofFn items) j).getLastD 0 := by
  have hfold : ∀ (list : List Item) (q : Quantities), list.foldl setQuantity q j =
      list.foldl (fun kept item => if item.itemId = (j.val : Int) + 1 then item.quantity else kept) (q j) := by
    intro list
    induction list with
    | nil => intro q; rfl
    | cons item rest ih => intro q; exact ih _
  rw [extractQuantities, hfold, foldl_assign]
  rfl

theorem sum_entries (items : Items) (j : Fin 6) : (entries items j).sum = (about (ofFn items) j).sum := by
  rw [entries, about]
  induction ofFn items with
  | nil => rfl
  | cons item rest ih =>
    by_cases hj : item.itemId = (j.val : Int) + 1
    · by_cases hq : item.quantity = 0
      · simpa [filter_cons, hj, hq] using ih
      · simpa [filter_cons, hj, hq] using ih
    · simpa [filter_cons, hj] using ih

theorem about_append (front back : List Item) (j : Fin 6) :
    about (front ++ back) j = about front j ++ about back j := by
  rw [about, filter_append, map_append]
  rfl

theorem about_of_unused (h : ∀ item ∈ list, item.itemId = 0) (j : Fin 6) : about list j = [] := by
  rw [about, filter_eq_nil_iff.mpr, map_nil]
  intro item hitem
  have hzero := h item hitem
  simp only [decide_eq_true_eq]
  omega

theorem about_filter (list : List Item) (j : Fin 6) :
    about (list.filter fun item => item.itemId ≠ 0) j = about list j := by
  rw [about, filter_filter]
  refine congrArg (List.map Item.quantity) (filter_congr fun item _ => ?_)
  by_cases hj : item.itemId = (j.val : Int) + 1
  · have hne : (j.val : Int) + 1 ≠ 0 := by omega
    simp [hj, hne]
  · simp [hj]

theorem about_itemsOf (h : list.length ≤ 6) (j : Fin 6) : about (ofFn (itemsOf list)) j = about list j := by
  have hzero : about (replicate (6 - list.length) .zero) j = [] := by
    apply about_of_unused
    intro item hitem
    rw [eq_of_mem_replicate hitem]
    rfl
  rw [ofFn_itemsOf h, about_append, hzero, append_nil]

theorem firstItems_eq (items : Items) (n : Nat) : firstItems items n = itemsOf ((ofFn items).take n) := by
  funext i
  rw [firstItems, itemsOf, getD_eq_getElem?_getD, getElem?_take]
  split
  · rw [getElem?_eq_getElem (by simp), List.getElem_ofFn]
    rfl
  · rfl

theorem length_take_ofFn (items : Items) (n : Nat) : ((ofFn items).take n).length ≤ 6 :=
  (length_take_le' _ _).trans (length_ofFn).le

theorem sum_entries_order (items : Items) (j : Fin 6) :
    (entries (transmitted (firstItems items (itemCount items))) j).sum =
      (about ((ofFn items).take (itemCount items)) j).sum := by
  rw [sum_entries, transmitted, about_itemsOf, about_filter, firstItems_eq, about_itemsOf (length_take_ofFn ..)]
  exact (length_filter_le _ _).trans (length_ofFn).le

theorem nonneg_itemsOf (h : ∀ item ∈ list, 0 ≤ item.quantity) (i : Fin 6) : 0 ≤ (itemsOf list i).quantity := by
  rw [itemsOf, getD_eq_getElem?_getD]
  cases hi : list[i.val]? with
  | none => exact le_rfl
  | some item => exact h item (mem_of_getElem? hi)

theorem nonneg_filter (h : ∀ i, 0 ≤ (items i).quantity) {p : Item → Bool} :
    ∀ quantity ∈ ((ofFn items).filter p).map Item.quantity, 0 ≤ quantity := by
  intro quantity hmem
  obtain ⟨item, hitem, rfl⟩ := mem_map.mp hmem
  obtain ⟨i, rfl⟩ := mem_ofFn.mp (mem_of_mem_filter hitem)
  exact h i

theorem nonneg_order (h : ∀ i, 0 ≤ (items i).quantity) (n : Nat) (i : Fin 6) :
    0 ≤ (transmitted (firstItems items n) i).quantity := by
  refine nonneg_itemsOf (fun item hitem => ?_) i
  obtain ⟨i', rfl⟩ := mem_ofFn.mp (mem_of_mem_filter hitem)
  rw [firstItems]
  split
  · exact h i'
  · exact le_rfl

theorem unused_of_front (h : Front items) {i : Fin 6} (hi : itemCount items ≤ i.val) : (items i).itemId = 0 := by
  by_contra hne
  have hused : ∀ item ∈ (ofFn items).take (i.val + 1), decide (item.itemId ≠ 0) = true := by
    intro item hitem
    obtain ⟨n, hn, rfl⟩ := mem_iff_getElem.mp hitem
    have hlt : n < i.val + 1 := hn.trans_le (length_take_le ..)
    rw [getElem_take, List.getElem_ofFn, decide_eq_true_iff]
    rcases Nat.lt_succ_iff_lt_or_eq.mp hlt with hbefore | rfl
    · exact h _ i hbefore hne
    · exact hne
  have hcount : ((ofFn items).take (i.val + 1)).countP (fun item => decide (item.itemId ≠ 0)) ≤ itemCount items :=
    (take_sublist ..).countP_le
  rw [countP_eq_length.mpr hused, length_take, length_ofFn] at hcount
  omega

theorem about_take_of_front (h : Front items) (j : Fin 6) :
    about ((ofFn items).take (itemCount items)) j = about (ofFn items) j := by
  have hrest : about ((ofFn items).drop (itemCount items)) j = [] := by
    refine about_of_unused (fun item hitem => ?_) j
    obtain ⟨n, hn, rfl⟩ := mem_iff_getElem.mp hitem
    rw [getElem_drop, List.getElem_ofFn]
    exact unused_of_front h (Nat.le_add_right ..)
  conv_rhs => rw [← take_append_drop (itemCount items) (ofFn items)]
  rw [about_append, hrest, append_nil]

theorem agrees_iff_of_front (hnonneg : ∀ i, 0 ≤ (items i).quantity) (h : Front items) :
    Agrees items ↔ ∀ j, ∀ quantity ∈ (about (ofFn items) j).dropLast, quantity = 0 := by
  refine forall_congr' fun j => ?_
  rw [about_take_of_front h]
  exact sum_eq_getLastD_iff (nonneg_filter hnonneg)

open Database InventorySpec MessageHandler ClampedStock ReplenishmentCycle HandlerAtomicity OrderMatching Scenario

variable {msg order : Message} {db : Db}

theorem inventoryItem_handleServerMessage {cfg : TimerConfig} {stamp : Nat → String} {st : SharedData}
    (htype : order.msgType = .serverToWarehouseOrderToDispatchStockToHub)
    (hack : (st.sendAckToServer order.timestamp (stamp 0)).isSome) (j : Fin 6) :
    (handleServerMessage cfg stamp order st).2.inventoryItem j =
      withdrawAll (st.inventoryItem j) (entries order.items.items j) := by
  obtain ⟨acked, hacked⟩ := Option.isSome_iff_exists.mp hack
  obtain ⟨-, -, -, hstock, -⟩ := queued_sendAck hacked
  rw [handleServerMessage_warehouseOrder htype, SharedData.answerAfter, hacked, ← hstock, ← modifyInventory_reduce]
  dsimp only
  split
  · rfl
  · next answered hanswered =>
    obtain ⟨reply, -, henqueued⟩ := Option.bind_eq_some_iff.mp hanswered
    obtain ⟨new, -, hasked, -⟩ := queued_requestReplenishment cfg answered (stamp 2)
    exact congrFun (hasked.trans (queued_enqueue henqueued).inventoryItem) j

def TakesRecorded (order : Message) (q : Quantities) : Prop :=
  ∀ (cfg : TimerConfig) (stamp : Nat → String) (st : SharedData),
    (st.sendAckToServer order.timestamp (stamp 0)).isSome →
    (∀ j, q j ≤ st.inventoryItem j ∧ (entries order.items.items j).sum ≤ st.inventoryItem j) →
      ∀ j, st.inventoryItem j - (handleServerMessage cfg stamp order st).2.inventoryItem j = q j

theorem takesRecorded_iff {q : Quantities} (htype : order.msgType = .serverToWarehouseOrderToDispatchStockToHub)
    (hnonneg : ∀ i, 0 ≤ (order.items.items i).quantity) :
    TakesRecorded order q ↔ ∀ j, (entries order.items.items j).sum = q j := by
  have htaken {cfg : TimerConfig} {stamp : Nat → String} {st : SharedData}
      (hack : (st.sendAckToServer order.timestamp (stamp 0)).isSome) {j : Fin 6}
      (hle : (entries order.items.items j).sum ≤ st.inventoryItem j) :
      st.inventoryItem j - (handleServerMessage cfg stamp order st).2.inventoryItem j =
        (entries order.items.items j).sum := by
    rw [inventoryItem_handleServerMessage htype hack, entries, withdrawAll_of_le (nonneg_filter hnonneg) hle]
    omega
  constructor
  · intro h j
    let st := idleClient warehouse "" fun j => max (q j) (entries order.items.items j).sum
    have hack : (st.sendAckToServer order.timestamp "").isSome := rfl
    have hrecorded := h ⟨0, 0⟩ (fun _ => "") st hack (fun j => ⟨le_max_left .., le_max_right ..⟩) j
    rwa [htaken hack (le_max_right ..)] at hrecorded
  · intro h cfg stamp st hack hle j
    rw [htaken hack (hle j).2, h]

theorem assigned_stockRequest {o : Oracle} {sessionId target : String} {id : Option Nat}
    (htype : msg.msgType = .hubToServerStockRequest)
    (horder : (handleOtherMessage o sessionId msg .unknown db).1 = some [.sendToUsername target order id]) :
    order.msgType = .serverToWarehouseOrderToDispatchStockToHub ∧
      order.items.items = firstItems msg.items.items (itemCount msg.items.items) ∧
      ∃ row ∈ (handleOtherMessage o sessionId msg .unknown db).2.transactions.rows,
        id = some row.transactionId ∧ row.quantities = extractQuantities msg.items.items := by
  rw [handleOtherMessage_stockRequest htype] at horder ⊢
  simp only [Option.some.injEq] at horder ⊢
  split at horder
  · next hassigned =>
    have hexits : (handleStockRequest msg).Exits (exec (o.attempt 0).env)
      (fun r => r.success = true → Handler.stockRequest.Duplicate msg db) (fun r => r.success = true) db :=
        exits_handleStockRequest
    rcases perform_exits hexits with ⟨hfailed, -⟩ | ⟨-, hc⟩
    · exact (hfailed hassigned.1).elim
    · generalize perform (o.attempt 0) (handleStockRequest msg) db = requested at hc horder ⊢
      obtain ⟨-, -, d, ts, found, hd, -, -, hresult, hdb⟩ := commits_handleStockRequest_eq_some hc
      have hroles : (prefixRoles MsgType.serverToWarehouseOrderToDispatchStockToHub.text).isSome := by decide
      obtain ⟨sent, hsent, htype', hitems⟩ := dispatchOrder_eq hroles (o.stamp 0)
        requested.1.assignedWarehouseId requested.1
      rw [hsent, Option.toList_some, List.cons.injEq] at horder
      cases horder.1
      refine ⟨htype', ?_, requestRow msg ts found d.nextId, ?_, ?_, rfl⟩
      · rw [hitems, hresult]
        rfl
      · rw [hdb]
        exact mem_append_right _ mem_cons_self
      · rw [hresult, (adjustInventory_transactions hd).2]
        rfl
  · cases horder

/-- The warehouse takes what the row records exactly when the entries that the order
copies add up to the last ones; where unused entries come last, when only the last
entry about an item has a quantity. -/
theorem order_amounts_iff (o : Oracle) (sessionId : String) (msg : Message) (db : Db) (target : String)
    (order : Message) (id : Option Nat) (htype : msg.msgType = .hubToServerStockRequest)
    (hnonneg : ∀ i, 0 ≤ (msg.items.items i).quantity)
    (horder : (handleOtherMessage o sessionId msg .unknown db).1 = some [.sendToUsername target order id]) :
    ∃ row ∈ (handleOtherMessage o sessionId msg .unknown db).2.transactions.rows, id = some row.transactionId ∧
      (TakesRecorded order.delivered row.quantities ↔ Agrees msg.items.items) ∧
      (Front msg.items.items → (TakesRecorded order.delivered row.quantities ↔
        ∀ j, ∀ quantity ∈ (about (ofFn msg.items.items) j).dropLast, quantity = 0)) := by
  obtain ⟨hordertype, hitems, row, hrow, hid, hquantities⟩ := assigned_stockRequest htype horder
  have hdelivered : order.delivered.items.items =
      transmitted (firstItems msg.items.items (itemCount msg.items.items)) := by
    rw [delivered_items, hitems]
  have hagrees : TakesRecorded order.delivered row.quantities ↔ Agrees msg.items.items := by
    rw [takesRecorded_iff ((delivered_msgType _).trans hordertype), hdelivered, hquantities]
    · refine forall_congr' fun j => ?_
      rw [sum_entries_order, extractQuantities_apply]
    · rw [hdelivered]
      exact nonneg_order hnonneg _
  exact ⟨row, hrow, hid, hagrees, fun hfront => hagrees.trans (agrees_iff_of_front hnonneg hfront)⟩

def request (items : List Item) : Message :=
  itemsMessage .hubToServerStockRequest hub "hub_1" "2026-01-01" (itemsOf items)

def wellStocked : Db :=
  (emptyDb.upsertInventory ⟨"hub_1", hub, fun _ => 0, 0⟩).upsertInventory ⟨"warehouse_1", warehouse, fun _ => 100, 0⟩

def waterOrder : Message :=
  createMessage .serverToWarehouseOrderToDispatchStockToHub server server warehouse "warehouse_1"
    (.items ⟨firstItems (itemsOf [⟨2, "water", 5⟩]) 1, ""⟩) "2026-01-05"

theorem water_as_recorded :
    ∃ row ∈ (handleOtherMessage plainOracle "tcp_1" (request [⟨2, "water", 5⟩]) .unknown wellStocked).2.transactions.rows,
      some 1 = some row.transactionId ∧
      (TakesRecorded waterOrder.delivered row.quantities ↔ Agrees (itemsOf [⟨2, "water", 5⟩])) ∧
      (Front (itemsOf [⟨2, "water", 5⟩]) → (TakesRecorded waterOrder.delivered row.quantities ↔
        ∀ j, ∀ quantity ∈ (about (ofFn (itemsOf [⟨2, "water", 5⟩])) j).dropLast, quantity = 0)) :=
  order_amounts_iff plainOracle "tcp_1" (request [⟨2, "water", 5⟩]) wellStocked "warehouse_1" waterOrder (some 1) rfl
    (by decide) rfl

def orderAndRow (items : List Item) : Option (Message × Quantities) :=
  match handleOtherMessage plainOracle "tcp_1" (request items) .unknown wellStocked with
  | (some [.sendToUsername _ order (some id)], db) =>
    (db.transactions.find? id).map fun row => (order.delivered, row.quantities)
  | _ => none

def taken (order : Message) : Quantities :=
  fun j => 100 - (handleServerMessage ⟨20, 100⟩ (fun _ => "2026-01-06") order
    (idleClient warehouse "warehouse_1" fun _ => 100)).2.inventoryItem j

theorem repeated_or_late_entry :
    (orderAndRow [⟨1, "food", 5⟩, ⟨1, "food", 3⟩]).map (fun x => (taken x.1 0, x.2 0)) = some (8, 3) ∧
      (orderAndRow [.zero, ⟨1, "food", 5⟩]).map (fun x => (taken x.1 0, x.2 0)) = some (0, 5) := by
  decide +kernel

end Logistics.OrderAmounts
