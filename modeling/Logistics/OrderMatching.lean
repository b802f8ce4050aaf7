import Logistics.Client
import Logistics.LifecycleMessages

namespace Logistics.OrderMatching

open JsonManager Database InventoryManager ApiGateway MessageHandler Lifecycle List SettledRows

variable {db db' : Db} {t : TransactionRow}

structure Letter where
  client : String
  transactionId : Nat
  message : Message

def isLetter : MsgType → Bool
  | .serverToWarehouseOrderToDispatchStockToHub | .serverToHubOrderToDispatchStock
  | .serverToHubIncomingStockNotice => true
  | _ => false

def letterOf : Response → Option Letter
  | .sendToUsername username msg (some id) => if isLetter msg.msgType then some ⟨username, id, msg.delivered⟩ else none
  | _ => none

def lettersOf (sent : Option (List Response)) : List Letter := (sent.getD []).filterMap letterOf

def Letter.answer (l : Letter) (stamp : String) : Option Message :=
  match l.message.msgType with
  | .serverToWarehouseOrderToDispatchStockToHub => Client.shipmentNotice l.client l.message stamp
  | .serverToHubOrderToDispatchStock => Client.dispatchConfirmation l.client l.message stamp
  | .serverToHubIncomingStockNotice => Client.receiptConfirmation hub l.client l.message stamp
  | _ => none

def handleAnswer (o : Oracle) (sessionId : String) (command : Command) (stamp : String) (l : Letter) (db : Db) :
    Option (List Response) × Db :=
  match l.answer stamp with
  | none => (some [], db)
  | some reply => handleOtherMessage o sessionId reply.delivered command db

structure World where
  db : Db
  letters : List Letter

inductive Event
  | message (o : Oracle) (sessionId : String) (msg : Message) (command : Command)
  | login (a : Attempt) (clientId clientType : String)
  | answer (o : Oracle) (sessionId : String) (command : Command) (stamp : String) (before : List Letter) (l : Letter)
      (after : List Letter)
  | lost (before : List Letter) (l : Letter) (after : List Letter)

def Event.apply : Event → World → World
  | .message o sessionId msg command, w =>
    let handled := handleOtherMessage o sessionId msg command w.db
    ⟨handled.2, w.letters ++ lettersOf handled.1⟩
  | .login a clientId clientType, w => ⟨(perform a (getClientInventoryMessage clientId clientType) w.db).2, w.letters⟩
  | .answer o sessionId command stamp before l after, w =>
    let handled := handleAnswer o sessionId command stamp l w.db
    ⟨handled.2, before ++ after ++ lettersOf handled.1⟩
  | .lost before _ after, w => ⟨w.db, before ++ after⟩

structure Accepted (o : Oracle) (stamp : String) (l : Letter) (db : Db) : Prop where
  timestamp : (o.attempt 0).env.parseTimestamp stamp ≠ none
  fits : ∀ r ∈ db.inventory.find? (safeStrcpy idSize l.client),
    adjustFits (l.message.msgType = .serverToHubIncomingStockNotice) r.stock (extractQuantities l.message.items.items)

/-- What can happen while every statement runs as written: orders and notices are
answered by the client that has them, and nothing else is answered. A receipt that
a warehouse sends for a restock is not an answer to one of the letters. -/
def Event.Possible : Event → World → Prop
  | .message o _ msg _, _ =>
    (∀ i, (o.attempt i).fault = none) ∧ msg.sourceId.length < idSize ∧
      msg.msgType ∉ [.warehouseToServerShipmentNotice, .hubToServerDispatchConfirmation,
        .hubToServerStockReceiptConfirmation]
  | .login a _ _, _ => a.fault = none
  | .answer o _ _ stamp before l after, w =>
    (∀ i, (o.attempt i).fault = none) ∧ w.letters = before ++ l :: after ∧ Accepted o stamp l w.db
  | .lost before l after, w => w.letters = before ++ l :: after

/-- The transaction of the letter is newer than every other one that its answer
could be taken for. -/
def Newest (db : Db) (l : Letter) : Prop :=
  ∀ t ∈ db.transactions.rows, ∀ u ∈ db.transactions.rows, t.transactionId = l.transactionId →
    u.transactionId ≠ l.transactionId →
    (if l.message.msgType = .serverToHubIncomingStockNotice then
      u.status = .dispatched ∧ u.destinationId = l.client
    else u.status = .assigned ∧ u.sourceId = some l.client) → u.orderTimestamp < t.orderTimestamp

/-- The entries that go into a dispatch order carry all the quantities of the
request, and none is negative. -/
def Packed (items : Items) : Prop :=
  extractQuantities (firstItems items (itemCount items)) = extractQuantities items ∧
    ∀ j, 0 ≤ extractQuantities items j

def Event.Meets : Event → World → Prop
  | .message _ _ msg _, w =>
    (msg.msgType = .hubToServerStockRequest → Packed msg.items.items) ∧
    (msg.msgType = .warehouseToServerStockReceiptConfirmation → ∀ t ∈ w.db.transactions.rows,
      t.status = .dispatched → t.destinationId = msg.sourceId → t.transactionType = .replenish)
  | .answer _ _ _ _ _ l _, w => l.client.length < idSize ∧ Newest w.db l
  | .login .., _ | .lost .., _ => True

def Step (w w' : World) : Prop := ∃ e : Event, e.Possible w ∧ w' = e.apply w

def MeetingStep (w w' : World) : Prop := ∃ e : Event, e.Possible w ∧ e.Meets w ∧ w' = e.apply w

def Init (w : World) : Prop := w.db.inventory.rows = [] ∧ w.db.transactions.rows = [] ∧ w.letters = []

structure Marks (status : Status) (id : Nat) (db db' : Db) : Prop where
  before : ∀ t ∈ db.transactions.rows, t.transactionId = id → t.status ≠ status
  after : ∃ t ∈ db'.transactions.rows, t.transactionId = id ∧ t.status = status
  others : ∀ k ≠ id, (∃ t ∈ db.transactions.rows, t.transactionId = k ∧ t.status = status) ↔
    ∃ t ∈ db'.transactions.rows, t.transactionId = k ∧ t.status = status

/-- The answer settles the transaction of its own order or notice. -/
structure Settles (l : Letter) (db : Db) (handled : Option (List Response) × Db) : Prop where
  marks : Marks (if l.message.msgType = .serverToHubIncomingStockNotice then .completed else .dispatched)
    l.transactionId db handled.2
  notice : l.message.msgType = .serverToWarehouseOrderToDispatchStockToHub →
    ∃ t ∈ db.transactions.rows, t.transactionId = l.transactionId ∧ ∃ msg : Message,
      handled.1 = some [.sendToUsername t.destinationId msg (some l.transactionId)] ∧
      msg.msgType = .serverToHubIncomingStockNotice ∧ extractQuantities msg.delivered.items.items = t.quantities

open KeyedTable SettledRows

variable {d : Db} {l : Letter} {new new' letters : List Letter}

structure Shippable (t : TransactionRow) : Prop where
  type : t.transactionType ≠ .replenish
  destination : t.transactionType ≠ .orderDispatch → t.destinationId ≠ "" ∧ t.destinationId.length < idSize
  quantities : t.transactionType ≠ .orderDispatch → ∀ j, 0 ≤ t.quantities j

structure Ordered (t : TransactionRow) (l : Letter) : Prop where
  status : t.status = .assigned
  shippable : Shippable t
  source : ∃ s, t.sourceId = some s ∧ s ≠ "" ∧ l.client = safeStrcpy credentialsSize s

def Awaits (t : TransactionRow) (l : Letter) : Prop :=
  t.transactionId = l.transactionId ∧
    match l.message.msgType with
    | .serverToWarehouseOrderToDispatchStockToHub =>
      Ordered t l ∧ t.transactionType ≠ .orderDispatch ∧ extractQuantities l.message.items.items = t.quantities
    | .serverToHubOrderToDispatchStock => Ordered t l
    | .serverToHubIncomingStockNotice =>
      t.status = .dispatched ∧ t.transactionType ≠ .replenish ∧ t.destinationId = l.client ∧ l.client ≠ ""
    | _ => False

theorem Awaits.settled (h : Awaits t l) : t.status ≠ .pending ∧ t.transactionType ≠ .replenish := by
  obtain ⟨-, h⟩ := h
  split at h
  · exact ⟨by rw [h.1.status]; decide, h.1.shippable.type⟩
  · exact ⟨by rw [h.status]; decide, h.shippable.type⟩
  · exact ⟨by rw [h.1]; decide, h.2.1⟩
  · exact h.elim

def PendingShippable (db : Db) : Prop := ∀ t ∈ db.transactions.rows, t.status = .pending → Shippable t

structure Issues (db db' : Db) (new : List Letter) : Prop where
  kept : KeepsSettled db db'
  pending : PendingShippable db'
  awaits : ∀ l ∈ new, ∃ t ∈ db'.transactions.rows, Awaits t l
  fresh : ∀ l ∈ new, ∀ t ∈ db.transactions.rows, t.transactionId = l.transactionId → t.status = .pending
  nodup : (new.map Letter.transactionId).Nodup

theorem Issues.none (hk : KeepsSettled db db') (hp : PendingShippable db') : Issues db db' [] :=
  ⟨hk, hp, by simp, by simp, nodup_nil⟩

theorem Issues.of_eq (hp : PendingShippable db) (h : db'.transactions = db.transactions) : Issues db db' [] :=
  .none (.of_eq h) fun t ht => hp t (by rwa [← h])

theorem Issues.trans (h : Issues db d new) (h' : Issues d db' new') : Issues db db' (new ++ new') := by
  refine ⟨h.kept.trans h'.kept, h'.pending, fun l hl => ?_, fun l hl t ht he => ?_, ?_⟩
  · rcases mem_append.mp hl with hl | hl
    · obtain ⟨t, ht, ha⟩ := h.awaits l hl
      exact ⟨t, h'.kept t ht ha.settled.1, ha⟩
    · exact h'.awaits l hl
  · rcases mem_append.mp hl with hl | hl
    · exact h.fresh l hl t ht he
    · by_contra hst
      exact hst (h'.fresh l hl t (h.kept t ht hst) he)
  · rw [map_append, nodup_append]
    refine ⟨h.nodup, h'.nodup, ?_⟩
    rintro id hid id' hid' rfl
    obtain ⟨l, hl, rfl⟩ := mem_map.mp hid
    obtain ⟨l', hl', he⟩ := mem_map.mp hid'
    obtain ⟨t, ht, ha⟩ := h.awaits l hl
    exact ha.settled.1 (h'.fresh l' hl' t ht (ha.1.trans he.symm))

theorem Issues.after_eq (hp : PendingShippable db) (h : d.transactions = db.transactions) (hi : Issues d db' new) :
    Issues db db' new :=
  (Issues.of_eq hp h).trans hi

structure Inv (w : World) : Prop where
  sound : Sound w.db
  awaits : ∀ l ∈ w.letters, ∃ t ∈ w.db.transactions.rows, Awaits t l
  nodup : (w.letters.map Letter.transactionId).Nodup
  pending : PendingShippable w.db

theorem Inv.issues (h : Inv ⟨db, letters⟩) (hi : Issues db db' new) (hs : Sound db') : Inv ⟨db', letters ++ new⟩ := by
  refine ⟨hs, fun l hl => ?_, ?_, hi.pending⟩
  · rcases mem_append.mp hl with hl | hl
    · obtain ⟨t, ht, ha⟩ := h.awaits l hl
      exact ⟨t, hi.kept t ht ha.settled.1, ha⟩
    · exact hi.awaits l hl
  · rw [map_append, nodup_append]
    refine ⟨h.nodup, hi.nodup, ?_⟩
    rintro id hid id' hid' rfl
    obtain ⟨l, hl, rfl⟩ := mem_map.mp hid
    obtain ⟨l', hl', he⟩ := mem_map.mp hid'
    obtain ⟨t, ht, ha⟩ := h.awaits l hl
    exact ha.settled.1 (hi.fresh l' hl' t ht (ha.1.trans he.symm))

theorem Inv.update (h : Inv ⟨db, letters⟩) (hd : d.transactions = db.transactions) {id : Nat}
    {f : TransactionRow → TransactionRow} {hf : ∀ t, (f t).transactionId = t.transactionId}
    (hid : ∀ l ∈ letters, l.transactionId ≠ id) (hto : ∀ t, (f t).status ≠ .pending)
    (hs : Sound (d.updateTransaction id f hf)) : Inv ⟨d.updateTransaction id f hf, letters⟩ := by
  refine ⟨hs, fun l hl => ?_, h.nodup, fun t ht hst => ?_⟩
  · obtain ⟨t, ht, ha⟩ := h.awaits l hl
    exact ⟨t, mem_updateRows.mpr (.inl ⟨by rwa [hd], fun he => hid l hl (ha.1.symm.trans he)⟩), ha⟩
  · rcases mem_updateRows.mp ht with ⟨ht, _⟩ | ⟨r, _, _, rfl⟩
    · exact h.pending t (by rwa [← hd]) hst
    · exact absurd hst (hto r)

theorem Inv.add (h : Inv ⟨db, letters⟩) (hid : ∀ l' ∈ letters, l'.transactionId ≠ l.transactionId)
    (ha : ∃ t ∈ db.transactions.rows, Awaits t l) : Inv ⟨db, letters ++ [l]⟩ := by
  refine ⟨h.sound, fun l' hl' => ?_, ?_, h.pending⟩
  · rcases mem_append.mp hl' with hl' | hl'
    · exact h.awaits l' hl'
    · rw [mem_singleton.mp hl']
      exact ha
  · rw [map_append, map_singleton, ← concat_eq_append, nodup_concat]
    refine ⟨?_, h.nodup⟩
    intro hmem
    obtain ⟨l', hl', he⟩ := mem_map.mp hmem
    exact hid l' hl' he

theorem Inv.of_tables (h : Inv ⟨db, letters⟩) (ht : db'.transactions = db.transactions) (hs : Sound db') :
    Inv ⟨db', letters⟩ :=
  ⟨hs, fun l hl => by simpa only [ht] using h.awaits l hl, h.nodup, fun t hmem => h.pending t (by rwa [← ht])⟩

theorem Inv.remove {before after : List Letter} (h : Inv ⟨db, before ++ l :: after⟩) :
    Inv ⟨db, before ++ after⟩ ∧ ∀ l' ∈ before ++ after, l'.transactionId ≠ l.transactionId := by
  have hsub : (before ++ after).Sublist (before ++ l :: after) := by simp
  have hnodup := h.nodup
  simp only [map_append, map_cons, nodup_middle, nodup_cons] at hnodup
  refine ⟨⟨h.sound, fun l' hl' => h.awaits l' (hsub.subset hl'), h.nodup.sublist (hsub.map _), h.pending⟩, ?_⟩
  intro l' hl' he
  rw [← map_append, ← he] at hnodup
  exact hnodup.1 (mem_map_of_mem hl')

variable {msg : Message} {msgType : MsgType}

theorem dispatchOrder_eq (hr : (prefixRoles msgType.text).isSome) (stamp targetId : String) (order : StockRequestResult)
    : ∃ m : Message, dispatchOrder msgType stamp targetId order =
    some (.sendToUsername (safeStrcpy credentialsSize targetId) m order.transactionId) ∧ m.msgType = msgType ∧
    m.items.items = firstItems order.items order.itemCount := by
  obtain ⟨roles, hroles⟩ := Option.isSome_iff_exists.mp hr
  obtain ⟨m, hm, htype, -, -, -, hitems⟩ := createItemsMessage_eq hroles server targetId order.items order.itemCount
    none stamp
  refine ⟨m, ?_, htype, hitems⟩
  rw [dispatchOrder, hm]
  rfl

def lettersFrom (msgType : MsgType) (stamp : Nat → String) (target : StockRequestResult → String)
    (orders : List StockRequestResult) : List Letter :=
  lettersOf (some (dispatchOrders msgType stamp target orders))

theorem lettersFrom_eq (stamp : Nat → String) (target : StockRequestResult → String)
    (orders : List StockRequestResult) : lettersFrom msgType stamp target orders = orders.zipIdx.filterMap fun x =>
      (dispatchOrder msgType (stamp x.2) (target x.1) x.1).bind letterOf := by
  simp only [lettersFrom, lettersOf, Option.getD_some, dispatchOrders, reduceOption, filterMap_map,
    filterMap_filterMap]
  rfl

theorem mem_lettersFrom (hr : (prefixRoles msgType.text).isSome) {stamp : Nat → String}
    {target : StockRequestResult → String} {orders : List StockRequestResult}
    (h : l ∈ lettersFrom msgType stamp target orders) : ∃ o ∈ orders, o.transactionId = some l.transactionId ∧
    l.client = safeStrcpy credentialsSize (target o) ∧ l.message.msgType = msgType ∧
    extractQuantities l.message.items.items = extractQuantities (firstItems o.items o.itemCount) := by
  rw [lettersFrom_eq, mem_filterMap] at h
  obtain ⟨⟨o, i⟩, ho, hl⟩ := h
  obtain ⟨m, hm, htype, hq⟩ := dispatchOrder_eq hr (stamp i) (target o) o
  refine ⟨o, (mem_zipIdx' ho).2 ▸ getElem_mem _, ?_⟩
  simp only [hm, Option.bind_some] at hl
  cases hid : o.transactionId with
  | none =>
    rw [hid] at hl
    cases hl
  | some id =>
    simp only [hid, letterOf] at hl
    split at hl
    · cases hl
      exact ⟨rfl, rfl, by simpa using htype, by rw [extractQuantities_delivered, hq]⟩
    · cases hl

theorem lettersFrom_ids (hl : isLetter msgType = true) (hr : (prefixRoles msgType.text).isSome)
    (stamp : Nat → String) (target : StockRequestResult → String) (orders : List StockRequestResult) :
    (lettersFrom msgType stamp target orders).map Letter.transactionId =
      orders.filterMap StockRequestResult.transactionId := by
  rw [lettersFrom_eq, map_filterMap]
  have hfst : orders.filterMap StockRequestResult.transactionId =
      orders.zipIdx.filterMap fun x => x.1.transactionId := by
    conv_lhs => rw [← zipIdx_map_fst 0 orders, filterMap_map]
    rfl
  rw [hfst]
  apply filterMap_congr
  rintro ⟨o, i⟩ -
  obtain ⟨m, hm, htype, -⟩ := dispatchOrder_eq hr (stamp i) (target o) o
  simp only [hm, Option.bind_some]
  cases o.transactionId with
  | none => rfl
  | some id => simp [letterOf, htype, hl]

theorem lettersOf_toList (stamp : Nat → String) (target : StockRequestResult → String) (order : StockRequestResult) :
    lettersOf (some (dispatchOrder msgType (stamp 0) (target order) order).toList) =
    lettersFrom msgType stamp target [order] := by
  rw [lettersFrom_eq, zipIdx_singleton, filterMap_cons]
  cases h : dispatchOrder msgType (stamp 0) (target order) order with
  | none => rfl
  | some sent => cases hl : letterOf sent <;> simp [lettersOf, hl]

theorem issues_insertRow (hp : PendingShippable db) {row : Nat → TransactionRow}
    (hrow : ∀ id, (row id).transactionId = id) {new : List Letter}
    (hpending : (row db.nextId).status = .pending → Shippable (row db.nextId))
    (hawaits : ∀ l ∈ new, Awaits (row db.nextId) l) (hnodup : (new.map Letter.transactionId).Nodup) :
    Issues db (db.insertRow row hrow) new := by
  have hmem : row db.nextId ∈ (db.insertRow row hrow).transactions.rows :=
    mem_append_right _ (mem_singleton_self _)
  refine ⟨fun _ ht _ => mem_append_left _ ht, fun t ht hst => ?_, fun l hl => ⟨_, hmem, hawaits l hl⟩,
    fun l hl t ht he => ?_, hnodup⟩
  · rcases mem_append.mp ht with ht | ht
    · exact hp t ht hst
    · rw [mem_singleton.mp ht] at hst ⊢
      exact hpending hst
  · have hid := (hawaits l hl).1
    rw [hrow] at hid
    have hlt := db.fresh t ht
    omega

section Aborts

variable {α : Type} {P : α → Prop} {thrown : α} {clientId : String} {q : Quantities}

theorem aborts_adjustClientInventory {add : Bool} {k : Int → Work α}
    (ht : P thrown) (hk : ∀ rc, (k rc).Aborts P) : (adjustClientInventory clientId q add thrown k).Aborts P := by
  rw [adjustClientInventory]
  split
  · exact hk _
  · exact ⟨ht, fun _ => hk _⟩

theorem aborts_createTransaction {transactionType : TransactionType} {destinationId destinationType : String}
    {orderTimestamp : String} {k : Option Nat → Work α} (ht : P thrown) (hk : ∀ id, (k id).Aborts P) :
    (createTransaction transactionType destinationId destinationType q orderTimestamp thrown k).Aborts P := by
  rw [createTransaction]
  split
  · exact hk _
  · exact ⟨ht, fun _ => hk _⟩

theorem aborts_getClientInventory {clientType : String} {k : Option Quantities → Work α} (ht : P thrown)
    (hk : ∀ stock, (k stock).Aborts P) : (getClientInventory clientId clientType thrown k).Aborts P := by
  rw [getClientInventory]
  split
  · exact hk _
  · refine ⟨ht, fun found => ?_⟩
    cases found with
    | none => exact ⟨ht, fun _ => hk _⟩
    | some stock => exact hk _

end Aborts

theorem aborts_handleStockRequest : (handleStockRequest msg).Aborts fun r => r.success = false := by
  simp only [handleStockRequest]
  refine aborts_adjustClientInventory ?_ fun _ => ?_
  · rfl
  refine aborts_createTransaction ?_ fun created => ?_
  · rfl
  cases created with
  | none => rfl
  | some id =>
    refine ⟨rfl, fun found => ?_⟩
    cases found with
    | none => trivial
    | some w =>
      by_cases hw : w = ""
      · simp only [hw, if_true]
        trivial
      · simp only [hw, if_false]
        exact ⟨rfl, fun _ => ⟨rfl, fun _ => trivial⟩⟩

theorem aborts_processPendingOrders (warehouseId : String) : (processPendingOrders warehouseId).Aborts (· = []) := by
  have hfirst (stock : Quantities) (pending : List TransactionRow) :
      (assignFirst warehouseId stock pending).Aborts (· = []) := by
    induction pending with
    | nil => trivial
    | cons t rest ih =>
      rw [assignFirst]
      split
      · exact ih
      · split
        · exact ⟨rfl, fun _ => ⟨rfl, fun _ => trivial⟩⟩
        · exact ih
  refine aborts_getClientInventory ?_ fun stock => ?_
  · rfl
  cases stock with
  | none => rfl
  | some stock =>
    refine ⟨rfl, fun rows => ?_⟩
    simp only
    split
    · rfl
    · exact hfirst _ _

end Logistics.OrderMatching
