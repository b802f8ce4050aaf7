import Logistics.Shipments
import Logistics.HandlerAtomicity
import Logistics.LastWins

namespace Logistics.GatewayOrders

open KeyedTable JsonManager Database InventoryManager InventorySpec ApiGateway Shipments TrimSpace LastWins List
open Scenario

variable {items : List ShipmentItem} {item : ShipmentItem} {db : Db}

def Names (item : ShipmentItem) (j : Fin 6) : Prop :=
  item.itemId = (j.val : Int) + 1 ∨ item.itemId = 0 ∧ trimSpace item.itemName = itemNames j

instance (item : ShipmentItem) (j : Fin 6) : Decidable (Names item j) := inferInstanceAs (Decidable (_ ∨ _))

def requested (items : List ShipmentItem) (j : Fin 6) : Int :=
  ((items.filter fun item => Names item j).map ShipmentItem.quantity).sum

def Carried (items : List ShipmentItem) (q : Quantities) : Prop :=
  (∀ j, q j = requested items j) ∧ ∀ item ∈ items, ∃ j, Names item j

/-- Every entry has the number of one of the six items, no two the same, and its
quantity is in the range of an int. -/
def Plain (items : List ShipmentItem) : Prop :=
  (∀ item ∈ items, 1 ≤ item.itemId ∧ item.itemId ≤ 6 ∧ item.quantity ≤ 2147483647) ∧
    (items.map ShipmentItem.itemId).Nodup

def numbered (items : List ShipmentItem) (j : Fin 6) : List ShipmentItem :=
  items.filter fun item => item.itemId = (j.val : Int) + 1

theorem valueint_le {n : Int} (h : 0 < n) : valueint n ≤ n ∧ (n ≤ valueint n → n ≤ 2147483647) := by
  unfold valueint
  omega

theorem valueint_of_le {n : Int} (h : 0 < n) (hle : n ≤ 2147483647) : valueint n = n := by
  unfold valueint
  omega

theorem orderQuantities_commandItems (items : List ShipmentItem) (j : Fin 6) : orderQuantities (commandItems items) j =
    ((numbered items j).map fun item => valueint item.quantity).getLastD 0 := by
  have hfold : ∀ (items : List ShipmentItem) (q : Quantities), (commandItems items).foldl setOrderQuantity q j =
      items.foldl (fun kept item => if item.itemId = (j.val : Int) + 1 then valueint item.quantity else kept) (q j) := by
    intro items
    induction items with
    | nil => intro q; rfl
    | cons item rest ih =>
      intro q
      change (commandItems rest).foldl setOrderQuantity (setOrderQuantity q _) j = _
      rw [ih]
      exact congrArg (fun kept => rest.foldl _ kept) (if_congr (by unfold valueint; omega) rfl rfl)
  rw [orderQuantities, hfold, foldl_assign]
  rfl

theorem pos_of_valid {request : ShipmentRequest} (h : validateShipmentRequest request = none) :
    ∀ item ∈ request.items, 0 < item.quantity := by
  intro item hitem
  unfold validateShipmentRequest at h
  split at h
  · cases h
  · obtain ⟨index, hindex⟩ := mem_iff_getElem?.mp hitem
    have hnone := findSome?_eq_none_iff.mp h (item, index) (mem_zipIdx_iff_getElem?.mpr hindex)
    unfold itemError at hnone
    split at hnone
    · cases hnone
    · next hquantity => exact not_le.mp hquantity

theorem only_entry (hpos : ∀ item ∈ items, 0 < item.quantity) {j : Fin 6}
    (h : orderQuantities (commandItems items) j = requested items j) (hitem : item ∈ items) (hnames : Names item j) :
    items.filter (fun item => Names item j) = [item] ∧ item.itemId = (j.val : Int) + 1 ∧
      item.quantity ≤ 2147483647 := by
  have hmem : item ∈ items.filter fun item => Names item j := mem_filter.mpr ⟨hitem, decide_eq_true hnames⟩
  have hall : ∀ x ∈ items.filter (fun item => Names item j), 0 < x.quantity :=
    fun x hx => hpos x (mem_of_mem_filter hx)
  have hle : ∀ x ∈ items.filter (fun item => Names item j), x.quantity ≤ requested items j := by
    intro x hx
    refine single_le_sum (fun y hy => ?_) _ (mem_map_of_mem hx)
    obtain ⟨z, hz, rfl⟩ := mem_map.mp hy
    exact (hall z hz).le
  rw [orderQuantities_commandItems] at h
  rcases (numbered items j).eq_nil_or_concat with hnil | ⟨earlier, last, hlast⟩
  · rw [hnil] at h
    have hitemLe := hle item hmem
    have hitemPos := hall item hmem
    change 0 = _ at h
    omega
  · have hnumbered : last ∈ numbered items j := by simp [hlast]
    obtain ⟨hmemLast, hid⟩ := mem_filter.mp hnumbered
    have hid := of_decide_eq_true hid
    have hlastMem : last ∈ items.filter fun item => Names item j :=
      mem_filter.mpr ⟨hmemLast, decide_eq_true (.inl hid)⟩
    rw [hlast, concat_eq_append, map_append, map_singleton, getLastD_concat] at h
    have hlastLe := hle last hlastMem
    obtain ⟨hcut, hfits⟩ := valueint_le (hall last hlastMem)
    have hsum : requested items j = last.quantity := by omega
    have hsingle := eq_singleton_of_sum hall hlastMem hsum
    rw [hsingle] at hmem
    cases mem_singleton.mp hmem
    exact ⟨hsingle, hid, hfits (by omega)⟩

theorem plain_of_carried (hpos : ∀ item ∈ items, 0 < item.quantity)
    (h : Carried items (orderQuantities (commandItems items))) : Plain items := by
  have hentry : ∀ item ∈ items, ∃ j : Fin 6, items.filter (fun item => Names item j) = [item] ∧
      item.itemId = (j.val : Int) + 1 ∧ item.quantity ≤ 2147483647 := by
    intro item hitem
    obtain ⟨j, hnames⟩ := h.2 item hitem
    exact ⟨j, only_entry hpos (h.1 j) hitem hnames⟩
  refine ⟨fun item hitem => ?_, nodup_iff_count_le_one.mpr fun id => ?_⟩
  · obtain ⟨j, -, hid, hquantity⟩ := hentry item hitem
    exact ⟨by omega, by omega, hquantity⟩
  · rcases Nat.eq_zero_or_pos ((items.map ShipmentItem.itemId).count id) with hzero | hcount
    · rw [hzero]
      exact Nat.zero_le 1
    · obtain ⟨item, hitem, rfl⟩ := mem_map.mp (count_pos_iff.mp hcount)
      obtain ⟨j, hsingle, hid, -⟩ := hentry item hitem
      rw [count_eq_countP, countP_map]
      calc items.countP ((· == item.itemId) ∘ ShipmentItem.itemId)
          ≤ items.countP (fun item => Names item j) := by
            refine countP_mono_left fun x _ hx => decide_eq_true (.inl ?_)
            rw [← hid]
            exact eq_of_beq hx
        _ = 1 := by rw [countP_eq_length_filter, hsingle, length_singleton]

theorem length_numbered (h : (items.map ShipmentItem.itemId).Nodup) (j : Fin 6) : (numbered items j).length ≤ 1 := by
  have hcount := nodup_iff_count_le_one.mp h ((j.val : Int) + 1)
  rw [count_eq_countP, countP_map, countP_eq_length_filter] at hcount
  exact hcount

theorem carried_of_plain (hpos : ∀ item ∈ items, 0 < item.quantity) (h : Plain items) :
    Carried items (orderQuantities (commandItems items)) := by
  obtain ⟨hrange, hnodup⟩ := h
  refine ⟨fun j => ?_, fun item hitem => ?_⟩
  · have hnames : items.filter (fun item => Names item j) = numbered items j := by
      refine filter_congr fun item hitem => decide_eq_decide.mpr ⟨?_, .inl⟩
      rintro (hid | ⟨hzero, -⟩)
      · exact hid
      · have hone := (hrange item hitem).1
        omega
    have hkept : (numbered items j).map (fun item => valueint item.quantity) =
        (numbered items j).map ShipmentItem.quantity := by
      refine map_congr_left fun item hitem => ?_
      have hmem := mem_of_mem_filter hitem
      exact valueint_of_le (hpos item hmem) (hrange item hmem).2.2
    rw [orderQuantities_commandItems, hkept, requested, hnames]
    refine ((sum_eq_getLastD_iff_of_pos ?_).mpr ?_).symm
    · intro x hx
      obtain ⟨item, hitem, rfl⟩ := mem_map.mp hx
      exact hpos item (mem_of_mem_filter hitem)
    · rw [length_map]
      exact length_numbered hnodup j
  · obtain ⟨hone, hsix, -⟩ := hrange item hitem
    exact ⟨⟨(item.itemId - 1).toNat, by omega⟩, .inl (by simp only; omega)⟩

theorem row_of_cmdCreateShipment {attempt : Nat → Attempt} {connected : Bool} {stamp : String}
    {list : List (Option Int × Option Int)} {hubId : Option String} {id : Nat}
    (h : (cmdCreateShipment attempt connected stamp (some list) db).1 = .order hubId id) :
    db.nextId ≤ id ∧ ∃ row ∈ (cmdCreateShipment attempt connected stamp (some list) db).2.2.transactions.rows,
      row.transactionId = id ∧ row.transactionType = .orderDispatch ∧ row.quantities = orderQuantities list := by
  simp only [cmdCreateShipment] at h ⊢
  split at h
  · cases h
  · next hconnected =>
    rw [if_neg hconnected]
    split at h
    · cases h
    · cases h
    · next listed heq =>
      cases heq
      have hnext : db.nextId ≤ (perform (attempt 0) (findHub (orderQuantities list)) db).2.nextId :=
        perform_induct (P := fun d => db.nextId ≤ d.nextId) _ _ _ (fun _ => Nat.le_max_left ..)
          (by rintro r d ⟨⟩; exact Nat.le_refl _)
      generalize perform (attempt 0) (findHub (orderQuantities list)) db = found at h hnext ⊢
      obtain ⟨hub, d⟩ := found
      have hexits : (insertOrder ((hub.map (safeStrcpy idSize)).getD "")
          (if (hub.map (safeStrcpy idSize)).isSome then .assigned else .pending) (orderQuantities list)).Exits
          (Database.exec (attempt 1).env) (fun r => r = none) (fun _ => True) d :=
        ⟨rfl, fun _ _ _ => ⟨trivial, rfl⟩⟩
      rcases perform_exits hexits with ⟨hnone, -⟩ | ⟨-, hc⟩
      · rw [hnone] at h
        cases h
      · have hcreated := Option.some.inj hc
        rw [← hcreated] at h ⊢
        cases h
        exact ⟨hnext, _, mem_append_right _ mem_cons_self, rfl, rfl, rfl⟩

theorem order_of_dispatchReply {reply : Reply} {transactionId : String} (h : dispatchReply reply = .ok transactionId) :
    ∃ hubId id, reply = .order hubId id ∧ id ≠ 0 ∧ transactionId = toString id := by
  cases reply with
  | error | pong | status => cases h
  | order hubId id =>
    rw [dispatchReply] at h
    split at h
    · cases h
    · next hid =>
      cases h
      exact ⟨hubId, id, rfl, hid, rfl⟩

/-- The order has what was requested exactly when each entry has the number of an
item of its own. -/
theorem order_as_requested_iff (d : Dispatcher) (shipmentId : String) (record : TrackedShipment)
    (attempt : Nat → Attempt) (connected : Bool) (stamp : String) (db : Db) (transactionId : String)
    (hvalid : validateShipmentRequest record.request = none) (hlookup : d.dispatchLookup shipmentId = .ok (some record))
    (hdispatch : (d.dispatchShipment shipmentId attempt connected stamp db).1 = .ok (some transactionId)) :
    ∃ row ∈ (d.dispatchShipment shipmentId attempt connected stamp db).2.2.transactions.rows,
      toString row.transactionId = transactionId ∧ row.transactionType = .orderDispatch ∧
        (Carried record.request.items row.quantities ↔ Plain record.request.items) := by
  unfold Dispatcher.dispatchShipment at hdispatch ⊢
  simp only [hlookup] at hdispatch ⊢
  split at hdispatch
  · cases hdispatch
  · next answered hreply =>
    cases hdispatch
    obtain ⟨hubId, id, hcommand, -, rfl⟩ := order_of_dispatchReply hreply
    obtain ⟨-, row, hrow, rfl, htype, hquantities⟩ := row_of_cmdCreateShipment hcommand
    have hpos := pos_of_valid hvalid
    have hiff : Carried record.request.items row.quantities ↔ Plain record.request.items := by
      rw [hquantities]
      exact ⟨plain_of_carried hpos, carried_of_plain hpos⟩
    exact ⟨row, hrow, rfl, htype, hiff⟩

def shipment (items : List ShipmentItem) : TrackedShipment :=
  ⟨⟨"s1", "ann", items⟩, "", .pendingConfirmation, "2026-01-01"⟩

def tracking (items : List ShipmentItem) : Dispatcher := ⟨Table.empty.put (shipment items), .empty⟩

theorem two_items_as_requested :
    ∃ row ∈ ((tracking [⟨1, "food", 5⟩, ⟨2, "", 3⟩]).dispatchShipment "s1" plainOracle.attempt true "2026-01-02"
        emptyDb).2.2.transactions.rows, toString row.transactionId = "1" ∧ row.transactionType = .orderDispatch ∧
        (Carried [⟨1, "food", 5⟩, ⟨2, "", 3⟩] row.quantities ↔ Plain [⟨1, "food", 5⟩, ⟨2, "", 3⟩]) :=
  order_as_requested_iff (tracking [⟨1, "food", 5⟩, ⟨2, "", 3⟩]) "s1" (shipment [⟨1, "food", 5⟩, ⟨2, "", 3⟩])
    plainOracle.attempt true "2026-01-02" emptyDb "1" (by decide) rfl rfl

def ordered (items : List ShipmentItem) : Option Quantities :=
  ((tracking items).dispatchShipment "s1" plainOracle.attempt true "2026-01-02" emptyDb).2.2.transactions.rows.head?.map
    TransactionRow.quantities

theorem repeated_or_named_item :
    validateShipmentRequest (shipment [⟨1, "", 5⟩, ⟨1, "", 3⟩, ⟨0, "water", 2⟩, ⟨7, "", 1⟩]).request = none ∧
      (ordered [⟨1, "", 5⟩, ⟨1, "", 3⟩, ⟨0, "water", 2⟩, ⟨7, "", 1⟩]).map (fun q => (q 0, q 1)) = some (3, 0) ∧
      requested [⟨1, "", 5⟩, ⟨1, "", 3⟩, ⟨0, "water", 2⟩, ⟨7, "", 1⟩] 0 = 8 ∧
      requested [⟨1, "", 5⟩, ⟨1, "", 3⟩, ⟨0, "water", 2⟩, ⟨7, "", 1⟩] 1 = 2 := by
  decide +kernel

end Logistics.GatewayOrders
