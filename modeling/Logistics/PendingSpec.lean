import Logistics.InventorySpec

namespace Logistics.PendingSpec

open KeyedTable JsonManager Database InventoryManager InventorySpec List

variable {α : Type} {env : Env} {db db' : Db}

def initialStock (clientType : String) : Int :=
  if clientType = warehouse then initialStockWarehouse else initialStockHub

def ensureInventory (db : Db) (now : Int) (clientId clientType : String) : Quantities × Db :=
  match db.inventory.find? clientId with
  | some r => (r.stock, db)
  | none => (fun _ => initialStock clientType,
      db.upsertInventory ⟨clientId, clientType, fun _ => initialStock clientType, now⟩)

theorem insertInventory_eq {row : InventoryRow} (h : db.inventory.find? row.clientId = none) :
    db.insertInventory row = some (db.upsertInventory row) := by
  have hnot : row.clientId ∉ db.inventory.rows.map InventoryRow.clientId := by
    intro hmem
    obtain ⟨r, hr, he⟩ := mem_map.mp hmem
    exact Table.find?_eq_none.mp h r hr he
  rw [Db.insertInventory, dif_neg hnot, Db.upsertInventory, Table.put, dif_neg hnot]

theorem commits_getClientInventory {clientId clientType : String} {thrown : α} {k : Option Quantities → Work α} :
    commits env (getClientInventory clientId clientType thrown k) db = if clientId = "" ∨ clientType =
    "" then commits env (k none) db else commits env (k (some (ensureInventory db env.now clientId clientType).1))
    (ensureInventory db env.now clientId clientType).2 := by
  rw [getClientInventory]
  split
  · rfl
  · rw [commits_exec]
    simp only [exec, Option.bind_some, ensureInventory]
    cases h : db.inventory.find? clientId with
    | some r => rfl
    | none =>
      simp only [Option.map_none, commits_exec, exec]
      rw [insertInventory_eq h]
      rfl

def pendingBatch (env : Env) (db : Db) : List TransactionRow := (db.pendingOldestFirst env).take maxPendingTransactions

theorem pendingBatch_ensureInventory (now : Int) (clientId clientType : String) :
    pendingBatch env (ensureInventory db now clientId clientType).2 = pendingBatch env db := by
  rw [ensureInventory]
  split <;> rfl

def firstFit (stock : Quantities) (pending : List TransactionRow) : Option TransactionRow :=
  pending.find? fun t => t.transactionType ≠ .orderDispatch ∧ canFulfill t.quantities stock

theorem commits_assignFirst (warehouseId : String) (stock : Quantities) (pending : List TransactionRow) :
    commits env (assignFirst warehouseId stock pending) db =
      match firstFit stock pending with
      | none => some ([], db)
      | some t => some ([orderResult t.transactionId true warehouseId t.destinationId t.quantities],
          db.assign t.transactionId warehouseId warehouse) := by
  induction pending with
  | nil => rfl
  | cons t rest ih =>
    rw [assignFirst]
    by_cases ht : t.transactionType = .orderDispatch
    · rw [if_pos ht, ih, firstFit, firstFit, find?_cons_of_neg (by simp [ht])]
    · rw [if_neg ht]
      by_cases hc : canFulfill t.quantities stock
      · rw [if_pos hc, firstFit, find?_cons_of_pos (by simp [ht, hc]), commits_assign]
        rfl
      · rw [if_neg hc, ih, firstFit, firstFit, find?_cons_of_neg (by simp [hc])]

theorem commits_processPendingOrders (warehouseId : String) : commits env (processPendingOrders warehouseId) db =
      let e := ensureInventory db env.now warehouseId warehouse
      if warehouseId = "" ∨ pendingBatch env db = [] then none
      else match firstFit e.1 (pendingBatch env db) with
        | none => some ([], e.2)
        | some t => some ([orderResult t.transactionId true warehouseId t.destinationId t.quantities],
            e.2.assign t.transactionId warehouseId warehouse) := by
  rw [processPendingOrders, commits_getClientInventory]
  by_cases hw : warehouseId = ""
  · simp [hw]
  · rw [if_neg (by simp [hw, warehouse])]
    simp only [hw, false_or]
    change commits env (if pendingBatch env (ensureInventory db env.now warehouseId warehouse).2 = [] then _ else
      assignFirst warehouseId _ (pendingBatch env (ensureInventory db env.now warehouseId warehouse).2)) _ = _
    rw [pendingBatch_ensureInventory]
    split
    · rfl
    · exact commits_assignFirst _ _ _

variable {r : List StockRequestResult}

theorem commits_processPendingOrders_eq_some {warehouseId : String}
    (hc : commits env (processPendingOrders warehouseId) db = some (r, db')) : warehouseId ≠ "" ∧
      match firstFit (ensureInventory db env.now warehouseId warehouse).1 (pendingBatch env db) with
      | none => r = [] ∧ db' = (ensureInventory db env.now warehouseId warehouse).2
      | some t => r = [orderResult t.transactionId true warehouseId t.destinationId t.quantities] ∧
          db' = (ensureInventory db env.now warehouseId warehouse).2.assign t.transactionId warehouseId warehouse := by
  rw [commits_processPendingOrders] at hc
  simp only at hc
  split at hc
  · cases hc
  · next hne =>
    refine ⟨fun h => hne (.inl h), ?_⟩
    split at hc <;> cases hc <;> exact ⟨rfl, rfl⟩

def greedy (stock : Quantities) : List TransactionRow → List TransactionRow
  | [] => []
  | t :: rest =>
    if t.transactionType = .orderDispatch ∧ canFulfill t.quantities stock then
      t :: greedy (stock - t.quantities) rest
    else greedy stock rest

def assignEach (db : Db) (hubId : String) (orders : List TransactionRow) : Db :=
  orders.foldl (fun db t => db.assign t.transactionId hubId hub) db

theorem commits_assignAll (hubId : String) (pending : List TransactionRow) (stock : Quantities)
    (fulfilled : List StockRequestResult) : commits env (assignAll hubId pending stock fulfilled) db =
      some (fulfilled ++ (greedy stock pending).map fun t => orderResult t.transactionId false hubId hubId t.quantities,
        assignEach db hubId (greedy stock pending)) := by
  induction pending generalizing db stock fulfilled with
  | nil => simp [assignAll, greedy, assignEach]
  | cons t rest ih =>
    rw [assignAll, greedy]
    by_cases ht : t.transactionType = .orderDispatch
    · by_cases hc : canFulfill t.quantities stock
      · rw [if_neg (by simp [ht]), if_pos hc, if_pos ⟨ht, hc⟩, commits_assign, ih]
        simp [assignEach]
      · rw [if_neg (by simp [ht]), if_neg hc, if_neg (by simp [hc]), ih]
    · rw [if_pos ht, if_neg (by simp [ht]), ih]

theorem commits_processPendingGatewayOrders (hubId : String) : commits env (processPendingGatewayOrders hubId) db =
      let e := ensureInventory db env.now hubId hub
      if hubId = "" ∨ pendingBatch env db = [] then none
      else some ((greedy e.1 (pendingBatch env db)).map fun t =>
          orderResult t.transactionId false hubId hubId t.quantities,
        assignEach e.2 hubId (greedy e.1 (pendingBatch env db))) := by
  rw [processPendingGatewayOrders, commits_getClientInventory]
  by_cases hh : hubId = ""
  · simp [hh]
  · rw [if_neg (by simp [hh, hub])]
    simp only [hh, false_or]
    change commits env (if pendingBatch env (ensureInventory db env.now hubId hub).2 = [] then _ else
      assignAll hubId (pendingBatch env (ensureInventory db env.now hubId hub).2) _ []) _ = _
    rw [pendingBatch_ensureInventory]
    split
    · rfl
    · exact commits_assignAll _ _ _ _

theorem commits_processPendingGatewayOrders_eq_some {hubId : String}
    (hc : commits env (processPendingGatewayOrders hubId) db = some (r, db')) : hubId ≠ "" ∧
      db' = assignEach (ensureInventory db env.now hubId hub).2 hubId
        (greedy (ensureInventory db env.now hubId hub).1 (pendingBatch env db)) := by
  rw [commits_processPendingGatewayOrders] at hc
  split at hc
  · cases hc
  · next hne =>
    cases hc
    exact ⟨fun h => hne (.inl h), rfl⟩

variable {t : TransactionRow}

theorem mem_pendingBatch (h : t ∈ pendingBatch env db) : t ∈ db.transactions.rows ∧ t.status = .pending := by
  have := mem_of_mem_take h
  rw [Db.pendingOldestFirst, mem_insertionSort, mem_filter] at this
  exact ⟨this.1, by simpa using this.2⟩

variable {o : TransactionRow}

theorem pending_unique (ho : o ∈ pendingBatch env db) (htrans : db'.transactions = db.transactions)
    (ht : t ∈ db'.transactions.rows) (he : t.transactionId = o.transactionId) : t.status = .pending := by
  obtain ⟨hmem, hst⟩ := mem_pendingBatch ho
  rw [htrans] at ht
  rw [db.transactions.unique ht hmem he, hst]

theorem nodup_pendingBatch : ((pendingBatch env db).map TransactionRow.transactionId).Nodup := by
  have hperm := (perm_insertionSort (older env) (db.transactions.rows.filter fun t => t.status = .pending)).map
    TransactionRow.transactionId
  have hall : ((db.pendingOldestFirst env).map TransactionRow.transactionId).Nodup :=
    hperm.nodup_iff.mpr (db.transactions.nodup.sublist (filter_sublist.map _))
  exact hall.sublist ((take_sublist _ _).map _)

theorem greedy_sublist (stock : Quantities) (pending : List TransactionRow) :
    Sublist (greedy stock pending) pending := by
  induction pending generalizing stock with
  | nil => exact .slnil
  | cons t rest ih =>
    rw [greedy]
    split
    · exact (ih _).cons_cons t
    · exact (ih _).cons t

theorem greedy_subset (stock : Quantities) (pending : List TransactionRow) : greedy stock pending ⊆ pending :=
  (greedy_sublist stock pending).subset

theorem orderDispatch_of_mem_greedy {t : TransactionRow} {stock : Quantities} {pending : List TransactionRow}
    (ht : t ∈ greedy stock pending) : t.transactionType = .orderDispatch := by
  induction pending generalizing stock with
  | nil => cases ht
  | cons u rest ih =>
    rw [greedy] at ht
    split at ht
    · next hu =>
      rcases mem_cons.mp ht with rfl | ht
      · exact hu.1
      · exact ih ht
    · exact ih ht

theorem total_greedy_le (pending : List TransactionRow) (stock : Quantities) (item : Fin 6)
    (h : greedy stock pending ≠ [] ∨ 0 ≤ stock item) :
    ((greedy stock pending).map fun t => t.quantities item).sum ≤ stock item := by
  induction pending generalizing stock with
  | nil => exact h.resolve_left fun hne => hne rfl
  | cons t pending ih =>
    rw [greedy] at h ⊢
    by_cases ht : t.transactionType = .orderDispatch ∧ canFulfill t.quantities stock
    · rw [if_pos ht, map_cons, sum_cons]
      have hrest := ih (stock - t.quantities) (.inr (Int.sub_nonneg_of_le (ht.2 item)))
      rw [Pi.sub_apply] at hrest
      omega
    · rw [if_neg ht] at h ⊢
      exact ih stock h

theorem ensureInventory_transactions (now : Int) (clientId clientType : String) :
    (ensureInventory db now clientId clientType).2.transactions = db.transactions := by
  rw [ensureInventory]
  split <;> rfl

theorem upsertInventory_changes {row : InventoryRow} (h : db.inventory.find? row.clientId = none) :
    (db.upsertInventory row).inventory.rows = db.inventory.rows ++ [row] := by
  have hnot : row.clientId ∉ db.inventory.rows.map InventoryRow.clientId := by
    intro hmem
    obtain ⟨r, hr, he⟩ := mem_map.mp hmem
    exact Table.find?_eq_none.mp h r hr he
  simp only [Db.upsertInventory, Table.put, dif_neg hnot]
  rfl

def assignedTo (clientId clientType : String) (t : TransactionRow) : TransactionRow :=
  { t with sourceId := some clientId, sourceType := some clientType, status := .assigned }

theorem mem_assign {id : Nat} {clientId clientType : String}
    (h : t ∈ (db.assign id clientId clientType).transactions.rows) :
    t ∈ db.transactions.rows ∨ t.status = .assigned ∧ t.transactionId = id ∧ t.sourceId = some clientId := by
  rcases mem_updateRows.mp h with ⟨ht, -⟩ | ⟨r, -, rfl, rfl⟩
  · exact .inl ht
  · exact .inr ⟨rfl, rfl, rfl⟩

variable {orders : List TransactionRow} {hubId : String}

theorem mem_assignEach (h : t ∈ (assignEach db hubId orders).transactions.rows) : t ∈ db.transactions.rows ∨
      t.status = .assigned ∧ ∃ o ∈ orders, t.transactionId = o.transactionId ∧ t.sourceId = some hubId := by
  induction orders generalizing db with
  | nil => exact .inl h
  | cons o rest ih =>
    rcases ih h with ht | ⟨hst, o', ho', hrow⟩
    · exact (mem_assign ht).imp_right fun hrow => ⟨hrow.1, o, mem_cons_self, hrow.2⟩
    · exact .inr ⟨hst, o', mem_cons_of_mem o ho', hrow⟩

theorem mem_assignEach_of_ne (ht : t ∈ db.transactions.rows) (h : ∀ o ∈ orders, o.transactionId ≠ t.transactionId) :
    t ∈ (assignEach db hubId orders).transactions.rows := by
  induction orders generalizing db with
  | nil => exact ht
  | cons o rest ih =>
    apply ih
    · exact mem_updateRows.mpr (.inl ⟨ht, (h o mem_cons_self).symm⟩)
    · intro o' ho'
      exact h o' (mem_cons_of_mem _ ho')

theorem assignedTo_mem_assignEach (hnodup : (orders.map TransactionRow.transactionId).Nodup) (ho : o ∈ orders)
    (hmem : o ∈ db.transactions.rows) : assignedTo hubId hub o ∈ (assignEach db hubId orders).transactions.rows := by
  induction orders generalizing db with
  | nil => cases ho
  | cons x rest ih =>
    rw [map_cons, nodup_cons] at hnodup
    rcases mem_cons.mp ho with rfl | ho
    · have hassigned : assignedTo hubId hub o ∈ (db.assign o.transactionId hubId hub).transactions.rows :=
        mem_updateRows.mpr (.inr ⟨o, hmem, rfl, rfl⟩)
      change _ ∈ (assignEach (db.assign o.transactionId hubId hub) hubId rest).transactions.rows
      refine mem_assignEach_of_ne hassigned fun o' ho' he => ?_
      exact hnodup.1 (mem_map.mpr ⟨o', ho', he⟩)
    · refine ih hnodup.2 ho (mem_updateRows.mpr (.inl ⟨hmem, fun he => ?_⟩))
      exact hnodup.1 (mem_map.mpr ⟨o, ho, he⟩)

theorem assignEach_inventory (hubId : String) (orders : List TransactionRow) :
    (assignEach db hubId orders).inventory = db.inventory := by
  induction orders generalizing db with
  | nil => rfl
  | cons o rest ih => exact ih

end Logistics.PendingSpec
