import Logistics.PendingPasses
import Logistics.Scenario

namespace Logistics.BacklogPasses

open JsonManager Database InventoryManager InventorySpec PendingSpec OrderCommits Scenario List

variable {a : Attempt} {env : Env} {db : Db} {clientId clientType hubId warehouseId : String} {stock : Quantities}
  {t : TransactionRow} {orders : List TransactionRow}

def assignRows (clientId clientType : String) (orders rows : List TransactionRow) : List TransactionRow :=
  rows.map fun t =>
    if t.transactionId ∈ orders.map TransactionRow.transactionId then assignedTo clientId clientType t else t

theorem assign_rows (db : Db) (t : TransactionRow) (clientId clientType : String) :
    (db.assign t.transactionId clientId clientType).transactions.rows =
      assignRows clientId clientType [t] db.transactions.rows := by
  refine map_congr_left fun u _ => ?_
  rw [map_singleton]
  simp only [mem_singleton]
  rfl

theorem assignEach_rows (hubId : String) (orders : List TransactionRow) (db : Db) :
    (assignEach db hubId orders).transactions.rows = assignRows hubId hub orders db.transactions.rows := by
  induction orders generalizing db with
  | nil => simp [assignEach, assignRows]
  | cons o orders ih =>
    rw [assignEach, foldl_cons, ← assignEach, ih, assign_rows, assignRows, assignRows, map_map]
    refine map_congr_left fun u _ => ?_
    rw [Function.comp_apply, map_cons, map_nil]
    by_cases ho : u.transactionId = o.transactionId
    · simp [ho, assignedTo]
    · simp [ho]

theorem assignedTo_mem_assignRows (horders : ∀ o ∈ orders, o ∈ db.transactions.rows) (ht : t ∈ db.transactions.rows)
    (hpending : t.status = .pending) :
    assignedTo clientId clientType t ∈ assignRows clientId clientType orders db.transactions.rows ↔ t ∈ orders := by
  constructor
  · intro h
    obtain ⟨u, hu, he⟩ := mem_map.mp h
    have hid : u.transactionId = t.transactionId := by
      have := congrArg TransactionRow.transactionId he
      split at this <;> exact this
    obtain rfl := db.transactions.unique hu ht hid
    by_cases hmem : u.transactionId ∈ orders.map TransactionRow.transactionId
    · obtain ⟨o, ho, hou⟩ := mem_map.mp hmem
      rwa [← db.transactions.unique (horders o ho) ht hou]
    · rw [if_neg hmem] at he
      have hstatus := congrArg TransactionRow.status he
      rw [hpending] at hstatus
      cases hstatus
  · intro h
    exact mem_map.mpr ⟨t, ht, if_pos (mem_map_of_mem h)⟩

def readStock (db : Db) (clientId clientType : String) : Quantities :=
  match db.inventory.find? clientId with
  | some row => row.stock
  | none => fun _ => initialStock clientType

theorem ensureInventory_stock (now : Int) : (ensureInventory db now clientId clientType).1 =
    readStock db clientId clientType := by
  rw [ensureInventory, readStock]
  cases db.inventory.find? clientId <;> rfl

theorem perform_without_backlog (hfault : a.fault = none) (hbatch : pendingBatch a.env db = [])
    {assign : Quantities → List TransactionRow → Work (List StockRequestResult)}
    (hcommits : commits a.env (pendingPass clientId clientType assign) db = none) :
    (perform a (pendingPass clientId clientType assign) db).1 = [] ∧
      (perform a (pendingPass clientId clientType assign) db).2.transactions.rows = db.transactions.rows := by
  refine ⟨pendingPass_none (.inr hbatch), ?_⟩
  rcases perform_of_no_fault hfault (pendingPass clientId clientType assign) db with ⟨-, r, w, hrun⟩ | hrun
  · rw [hrun]
    rfl
  · rw [hcommits] at hrun
    cases hrun

theorem gateway_pass (a : Attempt) (hubId : String) (db : Db) (hfault : a.fault = none) (hhub : hubId ≠ "") :
    let taken := greedy (readStock db hubId hub) (pendingBatch a.env db)
    (perform a (processPendingGatewayOrders hubId) db).1 =
        taken.map (fun t => orderResult t.transactionId false hubId hubId t.quantities) ∧
      (perform a (processPendingGatewayOrders hubId) db).2.transactions.rows =
        assignRows hubId hub taken db.transactions.rows := by
  have hcommits : commits a.env (processPendingGatewayOrders hubId) db = _ := commits_processPendingGatewayOrders hubId
  simp only [ensureInventory_stock, hhub, false_or] at hcommits
  by_cases hbatch : pendingBatch a.env db = []
  · rw [if_pos hbatch, processPendingGatewayOrders_eq] at hcommits
    obtain ⟨hresult, hrows⟩ := perform_without_backlog hfault hbatch hcommits
    rw [← processPendingGatewayOrders_eq] at hresult hrows
    rw [hresult, hrows, hbatch]
    exact ⟨rfl, by simp [greedy, assignRows]⟩
  · rw [if_neg hbatch] at hcommits
    rw [perform_of_commits hfault hcommits]
    refine ⟨rfl, ?_⟩
    rw [assignEach_rows, ensureInventory_transactions]

def stockLeft (stock : Quantities) (orders : List TransactionRow) : Quantities :=
  fun item => stock item - (orders.map fun t => t.quantities item).sum

theorem greedy_append (earlier rest : List TransactionRow) (stock : Quantities) : greedy stock (earlier ++ rest) =
    greedy stock earlier ++ greedy (stockLeft stock (greedy stock earlier)) rest := by
  induction earlier generalizing stock with
  | nil =>
    have hstock : stockLeft stock [] = stock := by
      exact sub_zero _
    rw [nil_append, greedy, hstock, nil_append]
  | cons t earlier ih =>
    rw [cons_append, greedy, greedy]
    by_cases ht : t.transactionType = .orderDispatch ∧ canFulfill t.quantities stock
    · have hstock (orders : List TransactionRow) :
          stockLeft (stock - t.quantities) orders = stockLeft stock (t :: orders) := by
        funext item
        rw [stockLeft, stockLeft, map_cons, sum_cons, Pi.sub_apply, sub_sub]
      rw [if_pos ht, if_pos ht, ih, hstock, cons_append]
    · rw [if_neg ht, if_neg ht, ih]

theorem filter_mem_of_sublist {α : Type} [DecidableEq α] {s l : List α} (h : s.Sublist l) (hl : l.Nodup) :
    l.filter (· ∈ s) = s := by
  induction h with
  | slnil => rfl
  | cons x h ih =>
    obtain ⟨hx, hl⟩ := nodup_cons.mp hl
    rw [filter_cons_of_neg (by simpa using fun hmem => hx (h.subset hmem)), ih hl]
  | cons_cons x h ih =>
    obtain ⟨hx, hl⟩ := nodup_cons.mp hl
    rw [filter_cons_of_pos (by simp)]
    refine congrArg (x :: ·) ((filter_congr fun y hy => ?_).trans (ih hl))
    have hne : y ≠ x := fun he => hx (he ▸ hy)
    simp [hne]

theorem nodup_batch : (pendingBatch env db).Nodup := Nodup.of_map _ nodup_pendingBatch

def Assigned (rows : List TransactionRow) (hubId : String) (t : TransactionRow) : Prop := assignedTo hubId hub t ∈ rows

instance (rows : List TransactionRow) (hubId : String) : DecidablePred (Assigned rows hubId) :=
  fun _ => inferInstanceAs (Decidable (_ ∈ _))

/-- The rows of the batch are taken one after the other, each dispatch order that fits into
what the ones before it left of the stock. An empty set of orders exceeds only a negative
stock. -/
structure AssignsGreedily (hubId : String) (stock : Quantities) (batch before after : List TransactionRow)
    (fulfilled : List StockRequestResult) : Prop where
  within : ∀ item, batch.filter (Assigned after hubId) ≠ [] ∨ 0 ≤ stock item →
    ((batch.filter (Assigned after hubId)).map fun t => t.quantities item).sum ≤ stock item
  exactly : ∀ earlier t later, batch = earlier ++ t :: later →
    (Assigned after hubId t ↔ t.transactionType = .orderDispatch ∧
      canFulfill t.quantities (stockLeft stock (earlier.filter (Assigned after hubId))))
  returned : Forall₂ (fun r t => r.transactionId = some t.transactionId ∧
    (ofFn r.items).take r.itemCount = positiveItems t.quantities) fulfilled (batch.filter (Assigned after hubId))
  others : after = before.map fun t => if t ∈ batch ∧ Assigned after hubId t then assignedTo hubId hub t else t

theorem take_items (q : Quantities) :
    (ofFn (itemsOf (positiveItems q))).take (positiveItems q).length = positiveItems q := by
  rw [ofFn_itemsOf (length_positiveItems q), take_left]

/-- A hub's pass over the backlog assigns greedily within the stock that it reads. -/
theorem gateway_orders_assigned_greedily (a : Attempt) (hubId : String) (db : Db) (hfault : a.fault = none)
    (hhub : hubId ≠ "") :
    AssignsGreedily hubId (readStock db hubId hub) ((db.pendingOldestFirst a.env).take maxPendingTransactions)
      db.transactions.rows (perform a (processPendingGatewayOrders hubId) db).2.transactions.rows
      (perform a (processPendingGatewayOrders hubId) db).1 := by
  obtain ⟨hresult, hrows⟩ := gateway_pass a hubId db hfault hhub
  change AssignsGreedily hubId _ (pendingBatch a.env db) _ _ _
  rw [hresult, hrows]
  generalize htaken : greedy (readStock db hubId hub) (pendingBatch a.env db) = taken
  have hsub : taken.Sublist (pendingBatch a.env db) := htaken ▸ greedy_sublist _ _
  have hmem (t : TransactionRow) (ht : t ∈ pendingBatch a.env db) :
      Assigned (assignRows hubId hub taken db.transactions.rows) hubId t ↔ t ∈ taken :=
    assignedTo_mem_assignRows (fun o ho => (mem_pendingBatch (hsub.subset ho)).1) (mem_pendingBatch ht).1
      (mem_pendingBatch ht).2
  have hfilter : (pendingBatch a.env db).filter (Assigned (assignRows hubId hub taken db.transactions.rows) hubId) =
      taken :=
    (filter_congr fun t ht => decide_eq_decide.mpr (hmem t ht)).trans (filter_mem_of_sublist hsub nodup_batch)
  refine ⟨?_, ?_, ?_, ?_⟩
  · rw [hfilter, ← htaken]
    exact total_greedy_le _ _
  · intro earlier t later hbatch
    have hnodup : (earlier ++ t :: later).Nodup := hbatch ▸ nodup_batch
    have hapart := disjoint_of_nodup_append hnodup
    rw [hbatch, greedy_append] at htaken
    have hearlier : earlier.filter (Assigned (assignRows hubId hub taken db.transactions.rows) hubId) =
        greedy (readStock db hubId hub) earlier := by
      refine (filter_congr fun u hu => decide_eq_decide.mpr ?_).trans
        (filter_mem_of_sublist (greedy_sublist _ _) hnodup.of_append_left)
      rw [hmem u (hbatch ▸ mem_append_left _ hu), ← htaken, mem_append]
      exact or_iff_left fun hrest => hapart hu (greedy_subset _ _ hrest)
    rw [hearlier, hmem t (hbatch ▸ mem_append_right _ mem_cons_self), ← htaken, mem_append,
      or_iff_right fun h => hapart (greedy_subset _ _ h) mem_cons_self, greedy]
    have hlater : t ∉ later := (nodup_cons.mp hnodup.of_append_right).1
    split
    next h => exact iff_of_true mem_cons_self h
    next h => exact iff_of_false (fun hrest => hlater (greedy_subset _ _ hrest)) h
  · rw [hfilter, forall₂_map_left_iff, forall₂_same]
    exact fun t _ => ⟨rfl, take_items t.quantities⟩
  · refine map_congr_left fun t ht => ?_
    have hiff : t.transactionId ∈ taken.map TransactionRow.transactionId ↔
        t ∈ pendingBatch a.env db ∧ Assigned (assignRows hubId hub taken db.transactions.rows) hubId t := by
      constructor
      · intro h
        obtain ⟨o, ho, hid⟩ := mem_map.mp h
        obtain rfl := db.transactions.unique (mem_pendingBatch (hsub.subset ho)).1 ht hid
        exact ⟨hsub.subset ho, (hmem o (hsub.subset ho)).mpr ho⟩
      · rintro ⟨hbatch, h⟩
        exact mem_map_of_mem ((hmem t hbatch).mp h)
    simp only [hiff]

def food (amount : Int) : Quantities := setQuantity 0 ⟨1, "food", amount⟩

def threeOrders : Db :=
  ((emptyDb.insertOrderDispatch "hub_1" .pending (food 60) 1).insertOrderDispatch "hub_1" .pending (food 50)
    2).insertOrderDispatch "hub_1" .pending (food 40) 3

theorem first_and_third_order : AssignsGreedily "hub_1" (readStock threeOrders "hub_1" hub)
    ((threeOrders.pendingOldestFirst plainEnv).take maxPendingTransactions) threeOrders.transactions.rows
    (perform ⟨plainEnv, none⟩ (processPendingGatewayOrders "hub_1") threeOrders).2.transactions.rows
    (perform ⟨plainEnv, none⟩ (processPendingGatewayOrders "hub_1") threeOrders).1 :=
  gateway_orders_assigned_greedily ⟨plainEnv, none⟩ "hub_1" threeOrders rfl (by decide)

section Requests

theorem warehouse_pass (a : Attempt) (warehouseId : String) (db : Db) (hfault : a.fault = none)
    (hwarehouse : warehouseId ≠ "") :
    let taken := (firstFit (readStock db warehouseId warehouse) (pendingBatch a.env db)).toList
    (perform a (processPendingOrders warehouseId) db).1 =
        taken.map (fun t => orderResult t.transactionId true warehouseId t.destinationId t.quantities) ∧
      (perform a (processPendingOrders warehouseId) db).2.transactions.rows =
        assignRows warehouseId warehouse taken db.transactions.rows := by
  have hcommits : commits a.env (processPendingOrders warehouseId) db = _ := commits_processPendingOrders warehouseId
  simp only [ensureInventory_stock, hwarehouse, false_or] at hcommits
  by_cases hbatch : pendingBatch a.env db = []
  · rw [if_pos hbatch, processPendingOrders_eq] at hcommits
    obtain ⟨hresult, hrows⟩ := perform_without_backlog hfault hbatch hcommits
    rw [← processPendingOrders_eq] at hresult hrows
    rw [hresult, hrows, hbatch]
    exact ⟨rfl, by simp [firstFit, assignRows]⟩
  · rw [if_neg hbatch] at hcommits
    cases hfit : firstFit (readStock db warehouseId warehouse) (pendingBatch a.env db) with
    | none =>
      rw [hfit] at hcommits
      rw [perform_of_commits hfault hcommits]
      rw [ensureInventory_transactions]
      simp [assignRows]
    | some t =>
      rw [hfit] at hcommits
      rw [perform_of_commits hfault hcommits]
      refine ⟨rfl, ?_⟩
      rw [assign_rows, ensureInventory_transactions]
      rfl

def Fits (rows : List TransactionRow) (stock : Quantities) (t : TransactionRow) : Prop :=
  t ∈ rows ∧ t.status = .pending ∧ t.transactionType = .stockRequest ∧ canFulfill t.quantities stock

def ServesOldest (warehouseId : String) (stock : Quantities) (before after : List TransactionRow)
    (fulfilled : List StockRequestResult) : Prop :=
  ∃ t, Fits before stock t ∧ (∀ u, Fits before stock u → t.orderTimestamp ≤ u.orderTimestamp) ∧
    assignedTo warehouseId warehouse t ∈ after ∧
    fulfilled.map StockRequestResult.transactionId = [some t.transactionId]

/-- The pass comes to a request that fits before its buffer of 100 rows is full and before
it comes to a replenishment that fits. -/
def ReachesRequest (env : Env) (db : Db) (stock : Quantities) : Prop :=
  ∃ earlier t later, db.pendingOldestFirst env = earlier ++ t :: later ∧ earlier.length < maxPendingTransactions ∧
    t.transactionType = .stockRequest ∧ canFulfill t.quantities stock ∧
    ∀ u ∈ earlier, canFulfill u.quantities stock → u.transactionType = .orderDispatch

theorem mem_pendingOldestFirst : t ∈ db.pendingOldestFirst env ↔ t ∈ db.transactions.rows ∧ t.status = .pending := by
  rw [Db.pendingOldestFirst, mem_insertionSort, mem_filter, decide_eq_true_eq]

instance : Std.Total (older env) := ⟨fun a b => by unfold older; omega⟩

instance : IsTrans TransactionRow (older env) := ⟨fun a b c => by unfold older; omega⟩

theorem firstFit_of_reaches {earlier later : List TransactionRow}
    (hrows : db.pendingOldestFirst env = earlier ++ t :: later) (hlength : earlier.length < maxPendingTransactions)
    (htype : t.transactionType = .stockRequest) (hfits : canFulfill t.quantities stock)
    (hearlier : ∀ u ∈ earlier, canFulfill u.quantities stock → u.transactionType = .orderDispatch) :
    firstFit stock (pendingBatch env db) = some t := by
  rw [firstFit, pendingBatch, hrows, find?_eq_some_iff_append]
  refine ⟨by simp [htype, hfits], earlier, later.take (maxPendingTransactions - earlier.length - 1), ?_, fun u hu => ?_⟩
  · obtain ⟨n, hn⟩ : ∃ n, maxPendingTransactions - earlier.length = n + 1 := ⟨_, (Nat.succ_pred (by omega)).symm⟩
    rw [take_append, take_of_length_le hlength.le, hn, take_succ_cons, Nat.add_sub_cancel]
  · have hdispatch := hearlier u hu
    grind

theorem reaches_of_firstFit (hfit : firstFit stock (pendingBatch env db) = some t)
    (htype : t.transactionType = .stockRequest) : ReachesRequest env db stock := by
  rw [firstFit, find?_eq_some_iff_append] at hfit
  obtain ⟨hfits, earlier, rest, hbatch, hearlier⟩ := hfit
  rw [decide_eq_true_eq] at hfits
  have hlength := congrArg List.length hbatch
  rw [pendingBatch, length_take, length_append, length_cons] at hlength
  refine ⟨earlier, t, rest ++ (db.pendingOldestFirst env).drop maxPendingTransactions, ?_, ?_, htype, hfits.2,
    fun u hu hu' => ?_⟩
  · calc
      db.pendingOldestFirst env = pendingBatch env db ++ (db.pendingOldestFirst env).drop maxPendingTransactions :=
        (take_append_drop _ _).symm
      _ = earlier ++ t :: (rest ++ (db.pendingOldestFirst env).drop maxPendingTransactions) := by
        rw [hbatch, append_assoc, cons_append]
  · omega
  · have hskipped := hearlier u hu
    grind

/-- A warehouse's pass serves the oldest request that fits exactly when it comes to one. -/
theorem oldest_request_served_iff (a : Attempt) (warehouseId : String) (db : Db) (hfault : a.fault = none)
    (hwarehouse : warehouseId ≠ "") : ServesOldest warehouseId (readStock db warehouseId warehouse) db.transactions.rows
        (perform a (processPendingOrders warehouseId) db).2.transactions.rows
        (perform a (processPendingOrders warehouseId) db).1 ↔
      ReachesRequest a.env db (readStock db warehouseId warehouse) := by
  obtain ⟨hresult, hrows⟩ := warehouse_pass a warehouseId db hfault hwarehouse
  rw [hresult, hrows]
  generalize readStock db warehouseId warehouse = stock
  have hpending (o : TransactionRow) (ho : o ∈ (firstFit stock (pendingBatch a.env db)).toList) :
      o ∈ db.transactions.rows :=
    (mem_pendingBatch (mem_of_find?_eq_some (Option.mem_toList.mp ho))).1
  constructor
  · rintro ⟨t, ⟨ht, hstatus, htype, -⟩, -, hassigned, -⟩
    have hfit := (assignedTo_mem_assignRows hpending ht hstatus).mp hassigned
    exact reaches_of_firstFit (Option.mem_toList.mp hfit) htype
  · rintro ⟨earlier, t, later, horder, hlength, htype, hfits, hearlier⟩
    have hfit := firstFit_of_reaches horder hlength htype hfits hearlier
    obtain ⟨ht, hstatus⟩ := mem_pendingOldestFirst.mp (horder ▸ mem_append_right _ mem_cons_self)
    refine ⟨t, ⟨ht, hstatus, htype, hfits⟩, fun u hu => ?_, ?_, ?_⟩
    · obtain ⟨hmem, hstatus, hrequest, hcan⟩ := hu
      have hread : u ∈ db.pendingOldestFirst a.env := mem_pendingOldestFirst.mpr ⟨hmem, hstatus⟩
      rw [horder] at hread
      rcases mem_append.mp hread with hu | hu
      · rw [hearlier u hu hcan] at hrequest
        cases hrequest
      · rcases mem_cons.mp hu with rfl | hu
        · exact le_rfl
        · have hsorted := pairwise_insertionSort (older a.env)
            (db.transactions.rows.filter fun t => t.status = .pending)
          rw [← Db.pendingOldestFirst, horder, pairwise_append] at hsorted
          rcases rel_of_pairwise_cons hsorted.2.1 hu with hlt | heq
          · exact hlt.le
          · exact heq.1.le
    · exact (assignedTo_mem_assignRows hpending ht hstatus).mpr (Option.mem_toList.mpr hfit)
    · rw [hfit]
      rfl

def requestBehind (n : Nat) : Db :=
  ((range n).foldl (fun db k => db.insertOrderDispatch "hub_1" .pending (food 5) k) emptyDb).insertTransaction
    .stockRequest "hub_1" hub (food 5) n

theorem request_behind_one_served :
    ServesOldest "wh_1" (readStock (requestBehind 1) "wh_1" warehouse) (requestBehind 1).transactions.rows
      (perform ⟨plainEnv, none⟩ (processPendingOrders "wh_1") (requestBehind 1)).2.transactions.rows
      (perform ⟨plainEnv, none⟩ (processPendingOrders "wh_1") (requestBehind 1)).1 := by
  refine (oldest_request_served_iff ⟨plainEnv, none⟩ "wh_1" (requestBehind 1) rfl (by decide)).mpr ?_
  have hrows : (requestBehind 1).pendingOldestFirst plainEnv = [_] ++ _ :: [] := rfl
  exact ⟨_, _, _, hrows, by decide, rfl, by decide, by decide⟩

/-- Behind a hundred orders for the hubs, a request that a full warehouse could serve is not
assigned. -/
theorem request_behind_hundred_starves :
    (∃ t, Fits (requestBehind 100).transactions.rows (readStock (requestBehind 100) "wh_1" warehouse) t) ∧
      ¬ ServesOldest "wh_1" (readStock (requestBehind 100) "wh_1" warehouse) (requestBehind 100).transactions.rows
        (perform ⟨plainEnv, none⟩ (processPendingOrders "wh_1") (requestBehind 100)).2.transactions.rows
        (perform ⟨plainEnv, none⟩ (processPendingOrders "wh_1") (requestBehind 100)).1 := by
  constructor
  · refine ⟨⟨101, .stockRequest, none, none, "hub_1", hub, .pending, food 5, 100, none, none⟩, ?_, rfl, rfl, ?_⟩
    · exact mem_append_right _ (by decide)
    · decide
  · rintro ⟨t, -, -, -, hone⟩
    have hnone : (perform ⟨plainEnv, none⟩ (processPendingOrders "wh_1") (requestBehind 100)).1.length = 0 := by
      decide +kernel
    rw [length_eq_zero_iff.mp hnone] at hone
    cases hone

end Requests

end Logistics.BacklogPasses
