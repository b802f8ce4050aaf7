import Mathlib.Algebra.Order.Group.Int
import Mathlib.Algebra.Order.BigOperators.Group.List
import Logistics.Client

namespace Logistics.ClampedStock

open List

def withdraw (stock quantity : Int) : Int := max 0 (stock - quantity)

def withdrawAll (stock : Int) (quantities : List Int) : Int := quantities.foldl withdraw stock

def residue (quantities : List Int) : Int := withdrawAll 0 quantities.tail

theorem withdrawAll_max (quantities : List Int) (x : Int) :
    withdrawAll (max 0 x) quantities = max (x - quantities.sum) (withdrawAll 0 quantities) := by
  induction quantities generalizing x with
  | nil => simp [withdrawAll, max_comm]
  | cons q rest ih =>
    have hx : withdraw (max 0 x) q = max 0 (max (x - q) (-q)) := by unfold withdraw; omega
    have h₀ : withdraw 0 q = max 0 (-q) := by unfold withdraw; omega
    change withdrawAll (withdraw (max 0 x) q) rest = max _ (withdrawAll (withdraw 0 q) rest)
    rw [hx, h₀, ih, ih, sum_cons]
    omega

theorem withdrawAll_cons (stock q : Int) (rest : List Int) :
    withdrawAll stock (q :: rest) = max (stock - (q :: rest).sum) (residue (q :: rest)) := by
  change withdrawAll (max 0 (stock - q)) rest = _
  rw [withdrawAll_max, sum_cons]
  simp only [residue, tail_cons]
  omega

theorem withdrawAll_of_le {stock : Int} {quantities : List Int} (hnonneg : ∀ q ∈ quantities, 0 ≤ q)
    (hle : quantities.sum ≤ stock) : withdrawAll stock quantities = stock - quantities.sum := by
  induction quantities generalizing stock with
  | nil => exact (Int.sub_zero stock).symm
  | cons q rest ih =>
    have hrest : ∀ r ∈ rest, 0 ≤ r := fun r hr => hnonneg r (mem_cons_of_mem q hr)
    have hsum := sum_nonneg hrest
    rw [sum_cons] at hle ⊢
    have hstep : withdraw stock q = stock - q := by
      unfold withdraw
      omega
    change withdrawAll (withdraw stock q) rest = _
    rw [ih hrest (by omega)]
    omega

theorem withdrawAll_withdrawAll_iff (stock : Int) (quantities : List Int) :
    withdrawAll (withdrawAll stock quantities) quantities = withdrawAll stock quantities ↔
      quantities.sum = 0 ∨ 0 < quantities.sum ∧ stock ≤ quantities.sum + residue quantities := by
  cases quantities with
  | nil => simp [withdrawAll]
  | cons q rest =>
    rw [withdrawAll_cons, withdrawAll_cons]
    omega

end Logistics.ClampedStock

namespace Logistics.Client

open JsonManager ClampedStock

variable {st st' : SharedData} {msg : Message} {items : Items} {operation : InventoryOperation}

def entries (items : Items) (j : Fin 6) : List Int :=
  ((List.ofFn items).filter fun item => item.itemId = (j.val : Int) + 1 ∧ item.quantity ≠ 0).map Item.quantity

theorem modified_reduce : modified .reduce = withdraw := by
  funext stock quantity
  change stock - (if quantity ≤ stock then quantity else stock) = max 0 (stock - quantity)
  split <;> omega

theorem foldl_modifyItem (list : List Item) (stock : Quantities) (j : Fin 6) :
    list.foldl (modifyItem operation) stock j =
      ((list.filter fun item => item.itemId = (j.val : Int) + 1 ∧ item.quantity ≠ 0).map Item.quantity).foldl
        (modified operation) (stock j) := by
  induction list generalizing stock with
  | nil => rfl
  | cons item rest ih =>
    rw [List.foldl_cons, ih]
    by_cases hj : item.itemId = (j.val : Int) + 1
    · by_cases hq : item.quantity = 0
      · rw [List.filter_cons_of_neg (by simp [hq])]
        simp [modifyItem, hq]
      · have hid : item.itemId ≠ 0 := by omega
        have hstep : modifyItem operation stock item j = modified operation (stock j) item.quantity := by
          rw [modifyItem, if_neg (by simp [hid, hq])]
          exact if_pos hj
        rw [List.filter_cons_of_pos (by simp [hj, hq]), List.map_cons, List.foldl_cons, hstep]
    · rw [List.filter_cons_of_neg (by simp [hj])]
      by_cases hskip : item.itemId = 0 ∨ item.quantity = 0
      · simp [modifyItem, hskip]
      · simp [modifyItem, hskip, hj]

theorem modifyInventory_add (j : Fin 6) :
    (st.modifyInventory items .add).inventoryItem j = st.inventoryItem j + (entries items j).sum := by
  refine (foldl_modifyItem _ _ _).trans ?_
  change (entries items j).foldl (· + ·) _ = _
  generalize entries items j = quantities
  generalize st.inventoryItem j = stock
  induction quantities generalizing stock with
  | nil => simp
  | cons q rest ih => rw [List.foldl_cons, ih, List.sum_cons, add_assoc]

theorem modifyInventory_reduce (j : Fin 6) :
    (st.modifyInventory items .reduce).inventoryItem j = withdrawAll (st.inventoryItem j) (entries items j) := by
  refine (foldl_modifyItem _ _ _).trans ?_
  rw [modified_reduce]
  rfl

structure Enqueued (st st' : SharedData) : Prop where
  clientRole : st'.clientRole = st.clientRole
  clientId : st'.clientId = st.clientId
  inventoryItem : st'.inventoryItem = st.inventoryItem
  pendingStockRequest : st'.pendingStockRequest = st.pendingStockRequest
  length : st'.pendingMessages.length = st.pendingMessages.length + 1

theorem enqueuePendingMessage_cases (st : SharedData) (msg : Message) :
    (st.pendingMessages.length = maxPendingMessages ∧ st.enqueuePendingMessage msg = none) ∨
    st.pendingMessages.length < maxPendingMessages ∧ ∃ st', st.enqueuePendingMessage msg = some st' ∧ Enqueued st st' ∧
    st'.pendingMessages = st.pendingMessages ++ [msg] := by
  by_cases h : st.pendingMessages.length < maxPendingMessages
  · refine .inr ⟨h, _, dif_pos h, ⟨rfl, rfl, rfl, rfl, ?_⟩, rfl⟩
    simp
  · exact .inl ⟨Nat.le_antisymm st.bounded (Nat.le_of_not_lt h), dif_neg h⟩

def knownRole (role : String) : Prop := role = hub ∨ role = warehouse ∨ role = gateway

def Room (st : SharedData) (count : Nat) : Prop := knownRole st.clientRole ∧ st.pendingMessages.length < count

theorem createAcknowledgmentMessage_isSome (role clientId msgTimestamp stamp : String) (status : Int) :
    (createAcknowledgmentMessage role clientId server server msgTimestamp status stamp).isSome ↔ knownRole role := by
  constructor
  · intro h
    by_contra hno
    simp only [knownRole, not_or] at hno
    have hserver : server ≠ hub ∧ server ≠ warehouse ∧ server ≠ gateway := by decide
    simp [createAcknowledgmentMessage, hno, hserver] at h
  · rintro (rfl | rfl | rfl) <;> rfl

theorem sendAckToServer_cases (st : SharedData) (msgTimestamp stamp : String) :
    (¬ Room st maxPendingMessages ∧ st.sendAckToServer msgTimestamp stamp = none) ∨
      Room st maxPendingMessages ∧ ∃ st', st.sendAckToServer msgTimestamp stamp = some st' ∧ Enqueued st st' := by
  have hrole := createAcknowledgmentMessage_isSome st.clientRole st.clientId msgTimestamp stamp ok
  unfold SharedData.sendAckToServer
  cases hack : createAcknowledgmentMessage st.clientRole st.clientId server server msgTimestamp ok stamp with
  | none =>
    rw [hack] at hrole
    exact .inl ⟨fun h => by simpa using hrole.mpr h.1, rfl⟩
  | some ack =>
    rw [hack] at hrole
    rcases enqueuePendingMessage_cases st ack with ⟨hfull, hnone⟩ | ⟨hroom, st', hsome, henq, -⟩
    · exact .inl ⟨fun h => absurd h.2 (by rw [hfull]; exact Nat.lt_irrefl _), hnone⟩
    · exact .inr ⟨⟨hrole.mp rfl, hroom⟩, st', hsome, henq⟩

theorem createItemsMessage_isSome {msgType : MsgType} (h : (prefixRoles msgType.text).isSome)
    (sourceId targetId : String) (items : Items) (itemCount : Nat) (orderTimestamp : Option String) (stamp : String) :
    (createItemsMessage msgType sourceId targetId items itemCount orderTimestamp stamp).isSome := by
  simpa [createItemsMessage] using h

theorem shipmentNotice_isSome (clientId stamp : String) : (shipmentNotice clientId msg stamp).isSome :=
  createItemsMessage_isSome (by decide) ..

theorem dispatchConfirmation_isSome (clientId stamp : String) : (dispatchConfirmation clientId msg stamp).isSome :=
  createItemsMessage_isSome (by decide) ..

theorem receiptConfirmation_isSome (clientRole clientId stamp : String) :
    (receiptConfirmation clientRole clientId msg stamp).isSome := by
  unfold receiptConfirmation
  split <;> exact createItemsMessage_isSome (by decide) ..

end Logistics.Client
