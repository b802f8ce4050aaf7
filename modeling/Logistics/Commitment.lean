import Logistics.LifecycleMessages
import Mathlib.Algebra.BigOperators.Pi
import Mathlib.Data.List.Sublists

namespace Logistics.Commitment

open KeyedTable JsonManager Database PendingSpec List

variable {db d : Db} {t : TransactionRow} {clientId clientType : String}

def promised (clientId : String) (t : TransactionRow) : Quantities :=
  if t.status = .assigned ∧ t.sourceId = some clientId then t.quantities else 0

def committed (db : Db) (clientId : String) : Quantities := (db.transactions.rows.map (promised clientId)).sum

def WithinStock (db : Db) : Prop := ∀ r ∈ db.inventory.rows, ∀ i, committed db r.clientId i ≤ r.stock i

instance (db : Db) : Decidable (WithinStock db) :=
  inferInstanceAs (Decidable (∀ r ∈ db.inventory.rows, ∀ i, committed db r.clientId i ≤ r.stock i))

theorem committed_congr (h : d.transactions = db.transactions) (clientId : String) :
    committed d clientId = committed db clientId := by
  rw [committed, committed, h]

theorem committed_insertRow {row : Nat → TransactionRow} {hrow : ∀ id, (row id).transactionId = id} (clientId : String)
    : committed (db.insertRow row hrow) clientId = committed db clientId + promised clientId (row db.nextId) := by
  change ((db.transactions.rows ++ [row db.nextId]).map (promised clientId)).sum = _
  rw [map_append, sum_append, map_singleton, sum_singleton]
  rfl

theorem promised_assignedTo (c : String) :
    promised c (assignedTo clientId clientType t) = if clientId = c then t.quantities else 0 := by
  simp [promised, assignedTo]

theorem committed_assign (ht : t ∈ db.transactions.rows) (hst : t.status = .pending) (c : String) :
    committed (db.assign t.transactionId clientId clientType) c =
      committed db c + if clientId = c then t.quantities else 0 := by
  have hsum := db.transactions.sum_update ht (assignedTo clientId clientType) (fun _ => rfl) (promised c)
  have hpending : promised c t = 0 := by simp [promised, hst]
  rw [promised_assignedTo, hpending, sub_zero] at hsum
  exact hsum

theorem committed_assignEach {hubId : String} {orders : List TransactionRow}
    (hnodup : (orders.map TransactionRow.transactionId).Nodup)
    (horders : ∀ o ∈ orders, o ∈ db.transactions.rows ∧ o.status = .pending) (c : String) :
    committed (assignEach db hubId orders) c =
      committed db c + if hubId = c then (orders.map TransactionRow.quantities).sum else 0 := by
  induction orders generalizing db with
  | nil => simp [assignEach]
  | cons o rest ih =>
    rw [map_cons, nodup_cons] at hnodup
    obtain ⟨ho, hst⟩ := horders o mem_cons_self
    have hrest : ∀ o' ∈ rest, o' ∈ (db.assign o.transactionId hubId hub).transactions.rows ∧
        o'.status = .pending := by
      intro o' ho'
      obtain ⟨hmem, hst'⟩ := horders o' (mem_cons_of_mem _ ho')
      refine ⟨mem_updateRows.mpr (.inl ⟨hmem, fun he => ?_⟩), hst'⟩
      exact hnodup.1 (mem_map.mpr ⟨o', ho', he⟩)
    change committed (assignEach (db.assign o.transactionId hubId hub) hubId rest) c = _
    rw [ih hnodup.2 hrest, committed_assign ho hst, add_assoc]
    split
    · rfl
    · rw [add_zero]

theorem WithinStock.of_row (h : WithinStock db) {stock extra : Quantities}
    (hrow : ∃ r ∈ d.inventory.rows, r.clientId = clientId ∧ r.stock = stock)
    (hother : ∀ r ∈ d.inventory.rows, r.clientId ≠ clientId → r ∈ db.inventory.rows)
    (hc : ∀ c, committed d c = committed db c + if clientId = c then extra else 0)
    (hs : ∀ i, committed db clientId i + extra i ≤ stock i) : WithinStock d := by
  intro r hr i
  rw [hc]
  by_cases hcl : clientId = r.clientId
  · obtain ⟨r', hr', hid, rfl⟩ := hrow
    rw [if_pos hcl, d.inventory.unique hr hr' (hcl.symm.trans hid.symm), hid]
    exact hs i
  · rw [if_neg hcl, add_zero]
    exact h r (hother r hr fun he => hcl he.symm) i

theorem ensureInventory_row (now : Int) (clientId clientType : String) :
    (∃ r ∈ (ensureInventory db now clientId clientType).2.inventory.rows,
      r.clientId = clientId ∧ r.stock = (ensureInventory db now clientId clientType).1) ∧
    ∀ r ∈ (ensureInventory db now clientId clientType).2.inventory.rows, r.clientId ≠ clientId →
      r ∈ db.inventory.rows := by
  simp only [ensureInventory]
  cases h : db.inventory.find? clientId with
  | some r =>
    obtain ⟨hr, hid⟩ := Table.find?_eq_some.mp h
    exact ⟨⟨r, hr, hid, rfl⟩, fun _ hr' _ => hr'⟩
  | none =>
    have hrows : (db.upsertInventory ⟨clientId, clientType, fun _ => initialStock clientType, now⟩).inventory.rows =
        db.inventory.rows ++ [⟨clientId, clientType, fun _ => initialStock clientType, now⟩] :=
      upsertInventory_changes h
    simp only [hrows]
    refine ⟨⟨_, mem_append_right _ (mem_singleton_self _), rfl, rfl⟩, fun r hr hne => ?_⟩
    rcases mem_append.mp hr with hr | hr
    · exact hr
    · rw [mem_singleton.mp hr] at hne
      exact absurd rfl hne

open InventoryManager InventorySpec ApiGateway Lifecycle Scenario

variable {env : Env} {msg : Message} {db' : Db} {a : Attempt}

inductive Event
  | stockRequest (a : Attempt) (msg : Message)
  | createNewOrder (attempt : Nat → Attempt) (connected : Bool) (stamp : String)
      (items : Option (List (Option Int × Option Int)))
  | processPendingOrders (a : Attempt) (warehouseId : String)
  | processPendingGatewayOrders (a : Attempt) (hubId : String)

def Event.apply : Event → Db → Db
  | .stockRequest a msg, db => (perform a (handleStockRequest msg) db).2
  | .createNewOrder attempt connected stamp items, db => (cmdCreateShipment attempt connected stamp items db).2.2
  | .processPendingOrders a warehouseId, db => (perform a (InventoryManager.processPendingOrders warehouseId) db).2
  | .processPendingGatewayOrders a hubId, db => (perform a (InventoryManager.processPendingGatewayOrders hubId) db).2

def Spares (db : Db) (clientId : String) (stock q : Quantities) : Prop :=
  canFulfill q stock → canFulfill (committed db clientId + q) stock

instance (db : Db) (clientId : String) (stock q : Quantities) : Decidable (Spares db clientId stock q) :=
  inferInstanceAs (Decidable (_ → _))

def afterRequest (msg : Message) (r : InventoryRow) : Quantities :=
  if r.clientId = msg.sourceId then adjusted false r.stock (extractQuantities msg.items.items) else r.stock

/-- Whatever the step may assign to a client and that client's stock covers also fits
next to what the client has already promised. -/
def Event.Covered : Event → Db → Prop
  | .stockRequest a msg, db =>
    let q := extractQuantities msg.items.items
    msg.sourceId ≠ "" → msg.sourceRole ≠ "" → a.env.parseTimestamp msg.timestamp ≠ none →
      (∀ r ∈ db.inventory.find? msg.sourceId, adjustFits false r.stock q) → ∀ r ∈ db.inventory.rows,
        canFulfill (committed db r.clientId) (afterRequest msg r) ∧
        (r.clientType = warehouse → r.clientId ≠ "" → Spares db r.clientId (afterRequest msg r) q)
  | .createNewOrder _ connected _ items, db =>
    connected = true → ∀ list ∈ items, list ≠ [] → ∀ r ∈ db.inventory.rows,
      hasStock hub (orderQuantities list) r → ∀ s ∈ db.inventory.rows, s.clientId = safeStrcpy idSize r.clientId →
        canFulfill (committed db s.clientId + orderQuantities list) s.stock
  | .processPendingOrders a warehouseId, db =>
    let stock := (ensureInventory db a.env.now warehouseId warehouse).1
    warehouseId ≠ "" → pendingBatch a.env db ≠ [] → canFulfill (committed db warehouseId) stock ∧
      ∀ t ∈ pendingBatch a.env db, t.transactionType ≠ .orderDispatch → Spares db warehouseId stock t.quantities
  | .processPendingGatewayOrders a hubId, db =>
    let stock := (ensureInventory db a.env.now hubId hub).1
    hubId ≠ "" → pendingBatch a.env db ≠ [] → canFulfill (committed db hubId) stock ∧
      ∀ orders ∈ (pendingBatch a.env db).sublists, (∀ t ∈ orders, t.transactionType = .orderDispatch) →
        Spares db hubId stock (orders.map TransactionRow.quantities).sum

def promisedBy (chosen : Option String) (q : Quantities) (clientId : String) : Quantities :=
  if chosen = some clientId then q else 0

variable {q : Quantities}

theorem withinStock_insertRow {row : Nat → TransactionRow} {hrow : ∀ id, (row id).transactionId = id}
    {chosen : Option String} (hd : d.transactions = db.transactions)
    (hp : ∀ c, promised c (row d.nextId) = promisedBy chosen q c)
    (h : ∀ r ∈ d.inventory.rows, ∀ i, committed db r.clientId i + promisedBy chosen q r.clientId i ≤ r.stock i) :
    WithinStock (d.insertRow row hrow) := by
  intro r hr i
  rw [committed_insertRow, committed_congr hd, hp]
  exact h r hr i

theorem promised_requestRow (ts : Int) (found : Option String) (id : Nat) (c : String) :
    promised c (requestRow msg ts found id) = promisedBy found (extractQuantities msg.items.items) c := by
  cases found <;> simp [promised, promisedBy, requestRow]

theorem hasStock_of_pickByStock {clientType clientId : String} (h : db.pickByStock env clientType q = some clientId) :
    ∃ r ∈ db.inventory.rows, hasStock clientType q r ∧ r.clientId = clientId := by
  obtain ⟨r, hr, rfl⟩ := Option.map_eq_some_iff.mp h
  have hmem := mem_filter.mp (mem_of_getElem? hr)
  exact ⟨r, hmem.1, of_decide_eq_true hmem.2, rfl⟩

theorem adjusted_rows {now : Int} {s : InventoryRow}
    (ha : db.adjustInventory msg.sourceId (extractQuantities msg.items.items) false now = some d)
    (hs : s ∈ d.inventory.rows) : ∃ r ∈ db.inventory.rows,
      s.clientId = r.clientId ∧ s.clientType = r.clientType ∧ s.stock = afterRequest msg r := by
  rw [Db.adjustInventory] at ha
  split at ha
  · cases ha
    obtain ⟨r, hr, rfl⟩ := mem_map.mp hs
    refine ⟨r, hr, ?_⟩
    simp only [afterRequest]
    split <;> exact ⟨rfl, rfl, rfl⟩
  · cases ha

theorem withinStock_stockRequest {r : StockRequestResult} (hcov : (Event.stockRequest a msg).Covered db)
    (hc : commits a.env (handleStockRequest msg) db = some (r, db')) : WithinStock db' := by
  obtain ⟨hs, hr, d, ts, found, ha, hts, rfl, -, rfl⟩ := commits_handleStockRequest_eq_some hc
  have hfits : ∀ r ∈ db.inventory.find? msg.sourceId,
      adjustFits false r.stock (extractQuantities msg.items.items) := by
    by_contra hno
    rw [Db.adjustInventory, if_neg hno] at ha
    cases ha
  have hrows := hcov hs hr (by rw [hts]; simp) hfits
  refine withinStock_insertRow (adjustInventory_transactions ha).1 (fun c => promised_requestRow ..) fun s hmem i => ?_
  obtain ⟨r, hr, hid, htype, hstock⟩ := adjusted_rows ha hmem
  obtain ⟨hkept, hspares⟩ := hrows r hr
  rw [← hid, ← hstock] at hkept hspares
  rw [promisedBy]
  split
  · next hpick =>
    obtain ⟨hpick, hne⟩ := Option.filter_eq_some_iff.mp hpick
    obtain ⟨s', hs', hhas, hid'⟩ := hasStock_of_pickByStock hpick
    cases d.inventory.unique hs' hmem hid'
    exact hspares (htype.symm.trans hhas.1) (by simpa using hne) hhas.2 i
  · simpa using hkept i

variable {r : List StockRequestResult} {warehouseId : String}

theorem withinStock_processPendingOrders (h : WithinStock db)
    (hcov : canFulfill (committed db warehouseId) (ensureInventory db a.env.now warehouseId warehouse).1 ∧
      ∀ t ∈ pendingBatch a.env db, t.transactionType ≠ .orderDispatch →
        Spares db warehouseId (ensureInventory db a.env.now warehouseId warehouse).1 t.quantities)
    (hc : commits a.env (processPendingOrders warehouseId) db = some (r, db')) : WithinStock db' := by
  obtain ⟨hrow, hother⟩ := @ensureInventory_row db a.env.now warehouseId warehouse
  have htrans : (ensureInventory db a.env.now warehouseId warehouse).2.transactions = db.transactions :=
    ensureInventory_transactions ..
  obtain ⟨-, hrest⟩ := commits_processPendingOrders_eq_some hc
  split at hrest
  · rw [hrest.2]
    have hc (c : String) : committed (ensureInventory db a.env.now warehouseId warehouse).2 c =
        committed db c + if warehouseId = c then 0 else 0 := by
      simpa using committed_congr htrans c
    exact h.of_row hrow hother hc fun i => by simpa using hcov.1 i
  · next t hfit =>
    rw [hrest.2]
    obtain ⟨ht, hst⟩ := mem_pendingBatch (mem_of_find?_eq_some hfit)
    have hfits : t.transactionType ≠ .orderDispatch ∧ canFulfill t.quantities
        (ensureInventory db a.env.now warehouseId warehouse).1 := by
      simpa using find?_some hfit
    refine h.of_row hrow hother (fun c => ?_) (hcov.2 t (mem_of_find?_eq_some hfit) hfits.1 hfits.2)
    rw [committed_assign (by rwa [htrans]) hst, committed_congr htrans]

variable {hubId : String}

theorem canFulfill_greedy (stock : Quantities) (pending : List TransactionRow) (h : greedy stock pending ≠ []) :
    canFulfill ((greedy stock pending).map TransactionRow.quantities).sum stock := by
  intro i
  have hsum := total_greedy_le pending stock i (.inl h)
  rwa [Pi.list_sum_apply, map_map]

theorem withinStock_processPendingGatewayOrders (h : WithinStock db)
    (hcov : canFulfill (committed db hubId) (ensureInventory db a.env.now hubId hub).1 ∧
      ∀ orders ∈ (pendingBatch a.env db).sublists, (∀ t ∈ orders, t.transactionType = .orderDispatch) →
        Spares db hubId (ensureInventory db a.env.now hubId hub).1 (orders.map TransactionRow.quantities).sum)
    (hc : commits a.env (processPendingGatewayOrders hubId) db = some (r, db')) : WithinStock db' := by
  obtain ⟨hrow, hother⟩ := @ensureInventory_row db a.env.now hubId hub
  have htrans : (ensureInventory db a.env.now hubId hub).2.transactions = db.transactions :=
    ensureInventory_transactions ..
  obtain ⟨-, rfl⟩ := commits_processPendingGatewayOrders_eq_some hc
  have hsub := greedy_sublist (ensureInventory db a.env.now hubId hub).1 (pendingBatch a.env db)
  have hnodup := nodup_pendingBatch.sublist (hsub.map TransactionRow.transactionId)
  have hc (c : String) : committed (assignEach _ hubId _) c = _ := committed_assignEach hnodup
    (fun o ho => htrans ▸ mem_pendingBatch (hsub.subset ho)) c
  simp only [committed_congr htrans] at hc
  refine h.of_row (by simpa only [assignEach_inventory] using hrow)
    (by simpa only [assignEach_inventory] using hother) hc fun i => ?_
  by_cases hnil : greedy (ensureInventory db a.env.now hubId hub).1 (pendingBatch a.env db) = []
  · simpa [hnil] using hcov.1 i
  · exact hcov.2 _ (mem_sublists.mpr hsub) (fun t => orderDispatch_of_mem_greedy) (canFulfill_greedy _ _ hnil) i

theorem processPendingOrders_isSome :
    (commits env (processPendingOrders warehouseId) db).isSome ↔ warehouseId ≠ "" ∧ pendingBatch env db ≠ [] := by
  rw [commits_processPendingOrders]
  simp only [ne_eq, ← not_or]
  split
  · next h => simp [h]
  · next h => split <;> simp [h]

theorem processPendingGatewayOrders_isSome :
    (commits env (processPendingGatewayOrders hubId) db).isSome ↔ hubId ≠ "" ∧ pendingBatch env db ≠ [] := by
  rw [commits_processPendingGatewayOrders]
  simp only [ne_eq, ← not_or]
  split <;> simp [*]

theorem withinStock_insertOrder {hubId : Option String} {r : Option Nat}
    (hd : d.transactions = db.transactions) (hc : commits a.env
      (insertOrder (hubId.getD "") (if hubId.isSome then .assigned else .pending) q) d = some (r, db'))
    (h : ∀ r ∈ d.inventory.rows, ∀ i, committed db r.clientId i + promisedBy hubId q r.clientId i ≤ r.stock i) :
    WithinStock db' := by
  cases hc
  refine withinStock_insertRow hd (fun c => ?_) h
  cases hubId <;> simp [promised, promisedBy]

theorem findHub_tables (a : Attempt) (q : Quantities) (db : Db) : (perform a (findHub q) db).2.transactions =
    db.transactions ∧ (perform a (findHub q) db).2.inventory = db.inventory := by
  refine perform_induct (P := fun d => d.transactions = db.transactions ∧ d.inventory = db.inventory) a _ db
    (fun _ => ⟨rfl, rfl⟩) fun r db' hc => ?_
  cases hc
  exact ⟨rfl, rfl⟩

variable {items : Option (List (Option Int × Option Int))} {attempt : Nat → Attempt} {connected : Bool}
  {stamp : String}

theorem withinStock_createNewOrder (h : WithinStock db)
    (hcov : (Event.createNewOrder attempt connected stamp items).Covered db) :
    WithinStock (cmdCreateShipment attempt connected stamp items db).2.2 := by
  simp only [cmdCreateShipment]
  split
  · exact h
  · next hconn =>
    split
    · exact h
    · exact h
    · next list hne =>
      obtain ⟨ht, hi⟩ := findHub_tables (attempt 0) (orderQuantities list) db
      have hcreated : WithinStock (perform (attempt 1) (insertOrder
          (((perform (attempt 0) (findHub (orderQuantities list)) db).1.map (safeStrcpy idSize)).getD "")
          (if ((perform (attempt 0) (findHub (orderQuantities list)) db).1.map (safeStrcpy idSize)).isSome
            then .assigned else .pending) (orderQuantities list))
          (perform (attempt 0) (findHub (orderQuantities list)) db).2).2 := by
        refine perform_induct (P := WithinStock) _ _ _ (fun _ r hr i => ?_) fun r db' hc => ?_
        · have hr' := h r (by rw [← hi]; exact hr) i
          rwa [← committed_congr ht] at hr'
        · refine withinStock_insertOrder ht hc ?_
          rw [hi]
          intro s hs i
          rw [promisedBy]
          split
          · next hpick =>
            obtain ⟨hubId, hfound, hid⟩ := Option.map_eq_some_iff.mp hpick
            rcases findHub_result (attempt 0) (orderQuantities list) db with hr | hr
            · cases hr.symm.trans hfound
            · obtain ⟨r, hr, hhas, rfl⟩ := hasStock_of_pickByStock (hr.symm.trans hfound)
              exact hcov (by simpa using hconn) list rfl (fun he => hne he) r hr hhas s hs hid.symm i
          · simpa using h s hs i
      split <;> exact hcreated

theorem withinStock_apply (h : WithinStock db) {e : Event} (hcov : e.Covered db) : WithinStock (e.apply db) := by
  cases e with
  | stockRequest a msg =>
    exact perform_induct (P := WithinStock) a _ db (fun _ => h) fun r db' hc => withinStock_stockRequest hcov hc
  | createNewOrder attempt connected stamp items => exact withinStock_createNewOrder h hcov
  | processPendingOrders a warehouseId =>
    refine perform_induct (P := WithinStock) a _ db (fun _ => h) fun r db' hc => ?_
    obtain ⟨hw, hb⟩ := processPendingOrders_isSome.mp (Option.isSome_of_eq_some hc)
    exact withinStock_processPendingOrders h (hcov hw hb) hc
  | processPendingGatewayOrders a hubId =>
    refine perform_induct (P := WithinStock) a _ db (fun _ => h) fun r db' hc => ?_
    obtain ⟨hw, hb⟩ := processPendingGatewayOrders_isSome.mp (Option.isSome_of_eq_some hc)
    exact withinStock_processPendingGatewayOrders h (hcov hw hb) hc

def Throughout (P : Db → Prop) : List Event → Db → Prop
  | [], db => P db
  | e :: rest, db => P db ∧ Throughout P rest (e.apply db)

def CoveredRun : List Event → Db → Prop
  | [], _ => True
  | e :: rest, db => e.Covered db ∧ CoveredRun rest (e.apply db)

variable {es : List Event}

theorem withinStock_run (h : WithinStock db) (hcov : CoveredRun es db) : Throughout WithinStock es db := by
  induction es generalizing db with
  | nil => exact h
  | cons e rest ih => exact ⟨h, ih (withinStock_apply h hcov.1) hcov.2⟩

theorem withinStock_start (hstart : ∀ t ∈ db.transactions.rows, t.status ≠ .assigned)
    (hstock : ∀ r ∈ db.inventory.rows, ∀ i, 0 ≤ r.stock i) : WithinStock db := by
  intro r hr i
  have hzero : committed db r.clientId = 0 := by
    apply sum_eq_zero
    intro q hq
    obtain ⟨t, ht, rfl⟩ := mem_map.mp hq
    exact if_neg fun h => hstart t ht h.1
  rw [hzero]
  exact hstock r hr i

/-- A run that starts with a non-negative stock and no assignment stays within the stock
when each of its steps is covered. -/
theorem assignments_within_stock (es : List Event) (db : Db) (hstart : ∀ t ∈ db.transactions.rows, t.status ≠ .assigned)
    (hstock : ∀ r ∈ db.inventory.rows, ∀ i, 0 ≤ r.stock i) (hcov : CoveredRun es db) : Throughout WithinStock es db :=
  withinStock_run (withinStock_start hstart hstock) hcov

def request (hubId timestamp : String) (quantity : Int) : Event :=
  .stockRequest ⟨plainEnv, none⟩ (itemsMessage .hubToServerStockRequest hub hubId timestamp (oneItem 1 quantity))

def mixedRun : List Event :=
  [request "hub_1" "2026-01-02" 30, request "hub_2" "2026-01-03" 60, .processPendingOrders ⟨plainEnv, none⟩ "wh_2",
    .createNewOrder (fun _ => ⟨plainEnv, none⟩) true "2026-01-04" (some [(some 1, some 40)]),
    .processPendingGatewayOrders ⟨plainEnv, none⟩ "hub_1", request "hub_3" "2026-01-05" 20]

theorem assignments_within_stock_mixed : Throughout WithinStock mixedRun stockedDb := by
  refine assignments_within_stock mixedRun stockedDb (by decide) (by decide) ⟨?_, ?_, ?_, ?_, ?_, ?_, trivial⟩
  · intro _ _ _ _
    decide
  · intro _ _ _ _
    decide
  · intro _ _
    decide
  · intro _
    decide
  · intro _ _
    decide
  · intro _ _ _ _
    decide

theorem assignments_over_stock : (∀ t ∈ stockedDb.transactions.rows, t.status ≠ .assigned) ∧
      (∀ r ∈ stockedDb.inventory.rows, ∀ i, 0 ≤ r.stock i) ∧
      ¬ Throughout WithinStock [request "hub_1" "2026-01-02" 30, request "hub_2" "2026-01-03" 30] stockedDb := by
  refine ⟨by decide, by decide, fun h => ?_⟩
  have hover : ¬ WithinStock
      ((request "hub_2" "2026-01-03" 30).apply ((request "hub_1" "2026-01-02" 30).apply stockedDb)) := by decide
  exact hover h.2.2

end Logistics.Commitment
