import Logistics.ClientSpec

namespace Logistics.Client

open JsonManager ClampedStock

variable {st : SharedData} {msg : Message} {cfg : TimerConfig} {apply after : SharedData → SharedData}
  {change : Quantities → Quantities} {msgTimestamp stamp : String} {answer : Option Message}

structure Local (apply : SharedData → SharedData) (change : Quantities → Quantities) : Prop where
  clientRole : ∀ st, (apply st).clientRole = st.clientRole
  clientId : ∀ st, (apply st).clientId = st.clientId
  pendingMessages : ∀ st, (apply st).pendingMessages = st.pendingMessages
  inventoryItem : ∀ st, (apply st).inventoryItem = change st.inventoryItem

theorem local_dispatch (items : Items) :
    Local (fun st => st.modifyInventory items .reduce) fun stock j => withdrawAll (stock j) (entries items j) :=
  ⟨fun _ => rfl, fun _ => rfl, fun _ => rfl, fun _ => funext fun j => modifyInventory_reduce j⟩

theorem local_delivery (items : Items) :
    Local (fun st => (st.modifyInventory items .add).clearPendingStockRequests items)
      fun stock j => stock j + (entries items j).sum :=
  ⟨fun _ => rfl, fun _ => rfl, fun _ => rfl, fun _ => funext fun j => modifyInventory_add j⟩

theorem answerAfter_cases (hl : Local apply change) (ha : answer.isSome) (st : SharedData) :
    (¬ Room st maxPendingMessages ∧ st.answerAfter msgTimestamp stamp apply answer after = (-1, st)) ∨
      Room st maxPendingMessages ∧ ∃ acked, Enqueued st acked ∧
        ((¬ Room st 9 ∧ (st.answerAfter msgTimestamp stamp apply answer after).2 = apply acked) ∨
          Room st 9 ∧ ∃ answered, Enqueued (apply acked) answered ∧
            (st.answerAfter msgTimestamp stamp apply answer after).2 = after answered) := by
  obtain ⟨reply, rfl⟩ := Option.isSome_iff_exists.mp ha
  unfold SharedData.answerAfter
  rcases sendAckToServer_cases st msgTimestamp stamp with ⟨hroom, hnone⟩ | ⟨hroom, acked, hsome, hacked⟩
  · exact .inl ⟨hroom, by rw [hnone]⟩
  · refine .inr ⟨hroom, acked, hacked, ?_⟩
    have hlength : (apply acked).pendingMessages.length = st.pendingMessages.length + 1 := by
      rw [hl.pendingMessages, hacked.length]
    rw [hsome]
    simp only [Option.bind_some]
    rcases enqueuePendingMessage_cases (apply acked) reply with ⟨hfull, hnone⟩ | ⟨hfree, answered, hsome', henq, -⟩
    · rw [hnone]
      exact .inl ⟨fun h => by have := h.2; simp only [maxPendingMessages] at hfull; omega, rfl⟩
    · rw [hsome']
      simp only [maxPendingMessages] at hfree
      exact .inr ⟨⟨hroom.1, by omega⟩, answered, henq, rfl⟩

theorem answerAfter_of_not_room (h : ¬ Room st maxPendingMessages) (hl : Local apply change) (ha : answer.isSome) :
    (st.answerAfter msgTimestamp stamp apply answer after).2 = st := by
  rcases answerAfter_cases hl ha st with ⟨-, he⟩ | ⟨hroom, -⟩
  · rw [he]
  · exact absurd hroom h

theorem answerAfter_of_room (h : Room st maxPendingMessages) (hl : Local apply change) (ha : answer.isSome)
    (hafter : ∀ st, (after st).inventoryItem = st.inventoryItem) :
    (st.answerAfter msgTimestamp stamp apply answer after).2.inventoryItem = change st.inventoryItem := by
  rcases answerAfter_cases hl ha st with ⟨hroom, -⟩ | ⟨-, acked, hacked, ⟨-, he⟩ | ⟨-, answered, henq, he⟩⟩
  · exact absurd h hroom
  · rw [he, hl.inventoryItem, hacked.inventoryItem]
  · rw [he, hafter, henq.inventoryItem, hl.inventoryItem, hacked.inventoryItem]

theorem answerAfter_again_iff {answer' : Option Message} {stamp' : String} {after' : SharedData → SharedData}
    {Again : Prop} (hl : Local apply change) (ha : answer.isSome) (ha' : answer'.isSome)
    (hafter : ∀ st, (after st).inventoryItem = st.inventoryItem)
    (hafter' : ∀ st, (after' st).inventoryItem = st.inventoryItem) (hagain : Room st maxPendingMessages →
      (Room (st.answerAfter msgTimestamp stamp apply answer after).2 maxPendingMessages ↔ Again))
    (hroom : Again → Room st maxPendingMessages) :
    ((st.answerAfter msgTimestamp stamp apply answer after).2.answerAfter msgTimestamp stamp' apply answer'
        after').2.inventoryItem = (st.answerAfter msgTimestamp stamp apply answer after).2.inventoryItem ↔
      (Again → change (change st.inventoryItem) = change st.inventoryItem) := by
  by_cases h : Room st maxPendingMessages
  · by_cases h' : Again
    · rw [answerAfter_of_room ((hagain h).mpr h') hl ha' hafter', answerAfter_of_room h hl ha hafter]
      exact ⟨fun he _ => he, fun he => he h'⟩
    · rw [answerAfter_of_not_room (fun hr => h' ((hagain h).mp hr)) hl ha']
      exact iff_of_true rfl fun hr => absurd hr h'
  · rw [answerAfter_of_not_room h hl ha, answerAfter_of_not_room h hl ha']
    exact iff_of_true rfl fun hr => absurd (hroom hr) h

theorem room_answerAfter (h : Room st maxPendingMessages) (hl : Local apply change) (ha : answer.isSome) :
    Room (st.answerAfter msgTimestamp stamp apply answer id).2 maxPendingMessages ↔ Room st 8 := by
  have hrole := h.1
  simp only [Room, maxPendingMessages] at h ⊢
  rcases answerAfter_cases hl ha st with ⟨hroom, -⟩ | ⟨-, acked, hacked, ⟨hfull, he⟩ | ⟨-, answered, henq, he⟩⟩
  · exact absurd h hroom
  · have hlength := hacked.length
    have hnine : ¬ st.pendingMessages.length < 9 := fun hlt => hfull ⟨hrole, hlt⟩
    rw [he, hl.pendingMessages]
    exact iff_of_false (fun hr => by omega) fun hr => by omega
  · rw [he, id, henq.clientRole, henq.length, hl.clientRole, hl.pendingMessages, hacked.clientRole, hacked.length]
    exact and_congr_right fun _ => by omega

theorem requestReplenishment_cases (st : SharedData) (cfg : TimerConfig) (stamp : String) :
    (st.requestReplenishment cfg stamp).clientRole = st.clientRole ∧
      (st.requestReplenishment cfg stamp).inventoryItem = st.inventoryItem ∧
      (st.requestReplenishment cfg stamp).pendingMessages.length =
        if st.getLowStockReport cfg = [] ∨ st.pendingMessages.length = maxPendingMessages then
          st.pendingMessages.length else st.pendingMessages.length + 1 := by
  simp only [SharedData.requestReplenishment]
  by_cases hlow : st.getLowStockReport cfg = []
  · simp [hlow]
  · obtain ⟨request, hrequest⟩ := Option.isSome_iff_exists.mp (createItemsMessage_isSome
      (show (prefixRoles MsgType.warehouseToServerReplenishRequest.text).isSome by decide) st.clientId server
      (buildFullRequestPayload ((st.getLowStockReport cfg).map Prod.fst)) 6 none stamp)
    rw [if_neg hlow, hrequest, Option.bind_some]
    rcases enqueuePendingMessage_cases st request with ⟨hfull, hnone⟩ | ⟨hfree, asked, hsome, henq, -⟩
    · rw [hnone, if_pos (.inr hfull)]
      exact ⟨rfl, rfl, rfl⟩
    · rw [hsome, if_neg (by simp [hlow, Nat.ne_of_lt hfree])]
      exact ⟨henq.clientRole, henq.inventoryItem, henq.length⟩

theorem room_dispatch (h : Room st maxPendingMessages) (items : Items) (ha : answer.isSome) (stamp' : String) :
    Room (st.answerAfter msgTimestamp stamp (fun st => st.modifyInventory items .reduce) answer
        fun st => st.requestReplenishment cfg stamp').2 maxPendingMessages ↔
      Room st 7 ∨ Room st 8 ∧ (st.modifyInventory items .reduce).getLowStockReport cfg = [] := by
  have hrole := h.1
  have hl := local_dispatch items
  simp only [Room, maxPendingMessages] at h ⊢
  rcases answerAfter_cases hl ha st with ⟨hroom, -⟩ | ⟨-, acked, hacked, ⟨hfull, he⟩ | ⟨-, answered, henq, he⟩⟩
  · exact absurd h hroom
  · have hlength := hacked.length
    have hnine : ¬ st.pendingMessages.length < 9 := fun hlt => hfull ⟨hrole, hlt⟩
    rw [he, hl.pendingMessages]
    refine iff_of_false (fun hr => by omega) ?_
    rintro (hr | ⟨hr, -⟩) <;> omega
  · obtain ⟨hrole', -, hcount⟩ := requestReplenishment_cases answered cfg stamp'
    have hlength : answered.pendingMessages.length = st.pendingMessages.length + 2 := by
      rw [henq.length, hl.pendingMessages, hacked.length]
    have hlow : answered.getLowStockReport cfg = (st.modifyInventory items .reduce).getLowStockReport cfg := by
      have hitems : answered.inventoryItem = (st.modifyInventory items .reduce).inventoryItem := by
        rw [henq.inventoryItem, hl.inventoryItem, hl.inventoryItem, hacked.inventoryItem]
      simp only [SharedData.getLowStockReport, hitems, henq.pendingStockRequest]
      exact hacked.pendingStockRequest ▸ rfl
    rw [he, hrole', henq.clientRole, hl.clientRole, hacked.clientRole, hcount, hlow]
    simp only [maxPendingMessages, hrole, true_and]
    by_cases hnil : (st.modifyInventory items .reduce).getLowStockReport cfg = []
    · simp only [hnil, true_or, if_true, and_true]
      omega
    · simp only [hnil, false_or, and_false, or_false]
      split <;> omega

def stockMessages : List MsgType :=
  [.serverToWarehouseInventoryUpdate, .serverToHubInventoryUpdate, .serverToWarehouseRestockNotice,
    .serverToHubIncomingStockNotice, .serverToWarehouseOrderToDispatchStockToHub, .serverToHubOrderToDispatchStock]

def Exhausts (quantities : List Int) (stock : Int) : Prop :=
  quantities.sum = 0 ∨ 0 < quantities.sum ∧ stock ≤ quantities.sum + residue quantities

instance (quantities : List Int) (stock : Int) : Decidable (Exhausts quantities stock) :=
  inferInstanceAs (Decidable (_ ∨ _))

/-- Either the queue of waiting messages has no room for a second acknowledgement,
or the entries of the message cancel out or exhaust the stock. -/
def HarmlessAgain (cfg : TimerConfig) (msg : Message) (st : SharedData) : Prop :=
  let items := msg.items.items
  match msg.msgType with
  | .serverToWarehouseOrderToDispatchStockToHub =>
    (Room st 7 ∨ Room st 8 ∧ (st.modifyInventory items .reduce).getLowStockReport cfg = []) →
      ∀ j, Exhausts (entries items j) (st.inventoryItem j)
  | .serverToHubOrderToDispatchStock => Room st 8 → ∀ j, Exhausts (entries items j) (st.inventoryItem j)
  | .serverToWarehouseRestockNotice | .serverToHubIncomingStockNotice => Room st 8 → ∀ j, (entries items j).sum = 0
  | _ => ∀ j, (entries items j).sum = 0

variable {stamp : Nat → String} {st : SharedData}

theorem handleServerMessage_delivery
    (h : msg.msgType = .serverToWarehouseRestockNotice ∨ msg.msgType = .serverToHubIncomingStockNotice) :
    handleServerMessage cfg stamp msg st = st.answerAfter msg.timestamp (stamp 0)
      (fun st => (st.modifyInventory msg.items.items .add).clearPendingStockRequests msg.items.items)
      (receiptConfirmation st.clientRole st.clientId msg (stamp 1)) id := by
  have hack : ¬ isAck msg.msgType := by
    rcases h with h | h <;> rw [h] <;> decide
  rw [handleServerMessage, if_neg hack]
  rcases h with h | h <;> simp only [h]

theorem handleServerMessage_warehouseOrder (h : msg.msgType = .serverToWarehouseOrderToDispatchStockToHub) :
    handleServerMessage cfg stamp msg st = st.answerAfter msg.timestamp (stamp 0)
      (fun st => st.modifyInventory msg.items.items .reduce) (shipmentNotice st.clientId msg (stamp 1))
      fun st => st.requestReplenishment cfg (stamp 2) := by
  rw [handleServerMessage, if_neg (by rw [h]; decide)]
  simp only [h]

theorem handleServerMessage_hubOrder (h : msg.msgType = .serverToHubOrderToDispatchStock) :
    handleServerMessage cfg stamp msg st = st.answerAfter msg.timestamp (stamp 0)
      (fun st => st.modifyInventory msg.items.items .reduce) (dispatchConfirmation st.clientId msg (stamp 1)) id := by
  rw [handleServerMessage, if_neg (by rw [h]; decide)]
  simp only [h]

theorem inventoryUpdate_inventory (stamp : Nat → String) (st : SharedData)
    (h : msg.msgType = .serverToWarehouseInventoryUpdate ∨ msg.msgType = .serverToHubInventoryUpdate) (j : Fin 6) :
    (handleServerMessage cfg stamp msg st).2.inventoryItem j =
      st.inventoryItem j + (entries msg.items.items j).sum := by
  have hack : ¬ isAck msg.msgType := by
    rcases h with h | h <;> rw [h] <;> decide
  rw [handleServerMessage, if_neg hack, ← modifyInventory_add]
  rcases sendAckToServer_cases (st.modifyInventory msg.items.items .add) msg.timestamp (stamp 0) with
    ⟨-, hnone⟩ | ⟨-, acked, hsome, hacked⟩
  · rcases h with h | h <;> simp only [h, hnone]
  · rcases h with h | h <;> simp only [h, hsome, hacked.inventoryItem]

theorem inventoryUpdate_again_iff (stamp stamp' : Nat → String) (st : SharedData)
    (h : msg.msgType = .serverToWarehouseInventoryUpdate ∨ msg.msgType = .serverToHubInventoryUpdate) :
    (handleServerMessage cfg stamp' msg (handleServerMessage cfg stamp msg st).2).2.inventoryItem =
      (handleServerMessage cfg stamp msg st).2.inventoryItem ↔ ∀ j, (entries msg.items.items j).sum = 0 := by
  rw [funext_iff]
  apply forall_congr'
  intro j
  rw [inventoryUpdate_inventory stamp' _ h]
  omega

theorem delivery_again_iff (stamp stamp' : Nat → String) (st : SharedData)
    (h : msg.msgType = .serverToWarehouseRestockNotice ∨ msg.msgType = .serverToHubIncomingStockNotice) :
    (handleServerMessage cfg stamp' msg (handleServerMessage cfg stamp msg st).2).2.inventoryItem =
      (handleServerMessage cfg stamp msg st).2.inventoryItem ↔
        (Room st 8 → ∀ j, (entries msg.items.items j).sum = 0) := by
  rw [handleServerMessage_delivery h, handleServerMessage_delivery h]
  refine (answerAfter_again_iff (local_delivery msg.items.items) (receiptConfirmation_isSome ..)
    (receiptConfirmation_isSome ..) (fun _ => rfl) (fun _ => rfl)
    (fun hroom => room_answerAfter hroom (local_delivery _) (receiptConfirmation_isSome ..))
    fun hroom => ⟨hroom.1, hroom.2.trans (by decide)⟩).trans ?_
  apply imp_congr_right
  intro _
  rw [funext_iff]
  apply forall_congr'
  intro j
  exact add_eq_left

theorem dispatched_again_iff (items : Items) (stock : Quantities) :
    (fun j => withdrawAll (withdrawAll (stock j) (entries items j)) (entries items j)) =
      (fun j => withdrawAll (stock j) (entries items j)) ↔ ∀ j, Exhausts (entries items j) (stock j) := by
  rw [funext_iff]
  apply forall_congr'
  intro j
  exact withdrawAll_withdrawAll_iff _ _

theorem warehouseOrder_again_iff (stamp stamp' : Nat → String) (st : SharedData)
    (h : msg.msgType = .serverToWarehouseOrderToDispatchStockToHub) :
    (handleServerMessage cfg stamp' msg (handleServerMessage cfg stamp msg st).2).2.inventoryItem =
      (handleServerMessage cfg stamp msg st).2.inventoryItem ↔
        ((Room st 7 ∨ Room st 8 ∧ (st.modifyInventory msg.items.items .reduce).getLowStockReport cfg = []) →
          ∀ j, Exhausts (entries msg.items.items j) (st.inventoryItem j)) := by
  rw [handleServerMessage_warehouseOrder h, handleServerMessage_warehouseOrder h]
  refine (answerAfter_again_iff (local_dispatch msg.items.items) (shipmentNotice_isSome ..)
    (shipmentNotice_isSome ..) (fun st => (requestReplenishment_cases st cfg _).2.1)
    (fun st => (requestReplenishment_cases st cfg _).2.1)
    (fun hroom => room_dispatch hroom _ (shipmentNotice_isSome ..) _) ?_).trans
    (imp_congr_right fun _ => dispatched_again_iff _ _)
  rintro (hroom | ⟨hroom, -⟩) <;> exact ⟨hroom.1, hroom.2.trans (by decide)⟩

theorem hubOrder_again_iff (stamp stamp' : Nat → String) (st : SharedData)
    (h : msg.msgType = .serverToHubOrderToDispatchStock) :
    (handleServerMessage cfg stamp' msg (handleServerMessage cfg stamp msg st).2).2.inventoryItem =
      (handleServerMessage cfg stamp msg st).2.inventoryItem ↔
        (Room st 8 → ∀ j, Exhausts (entries msg.items.items j) (st.inventoryItem j)) := by
  rw [handleServerMessage_hubOrder h, handleServerMessage_hubOrder h]
  exact (answerAfter_again_iff (local_dispatch msg.items.items) (dispatchConfirmation_isSome ..)
    (dispatchConfirmation_isSome ..) (fun _ => rfl) (fun _ => rfl)
    (fun hroom => room_answerAfter hroom (local_dispatch _) (dispatchConfirmation_isSome ..))
    fun hroom => ⟨hroom.1, hroom.2.trans (by decide)⟩).trans
    (imp_congr_right fun _ => dispatched_again_iff _ _)

def idleClient (clientRole clientId : String) (inventoryItem : Quantities) : SharedData :=
  ⟨clientRole, clientId, inventoryItem, fun _ => false, [], by decide, fun _ => none, false⟩

def restock (quantity : Int) : Message :=
  createMessage .serverToWarehouseRestockNotice server server warehouse "wh_1"
    (.items ⟨itemsOf [⟨1, "food", quantity⟩], ""⟩) "2026-01-01"

def orderToDispatch (quantity : Int) : Message :=
  createMessage .serverToWarehouseOrderToDispatchStockToHub server server warehouse "wh_1"
    (.items ⟨itemsOf [⟨1, "food", quantity⟩], ""⟩) "2026-01-01"

def handledAt (stamp : String) (msg : Message) (st : SharedData) : SharedData :=
  (handleServerMessage ⟨20, 100⟩ (fun _ => stamp) msg st).2

end Logistics.Client
