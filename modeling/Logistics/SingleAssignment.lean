import Logistics.WorkersRuns

namespace Logistics.Sessions

open TransactionProgram JsonManager Database InventoryManager ApiGateway OrderMatching Scenario List Option

variable {α : Type} {f : α → List Nat} {ts ss : List Nat} {thrown : α} {clientId clientType : String} {q : Quantities}

theorem orderIds_warehouse (stamp : Nat → String) (target : StockRequestResult → String)
    (orders : List StockRequestResult) : orderIds .serverToWarehouseOrderToDispatchStockToHub stamp target orders =
    orders.filterMap StockRequestResult.transactionId :=
  lettersFrom_ids rfl (by decide) stamp target orders

theorem orderIds_hub (stamp : Nat → String) (target : StockRequestResult → String) (orders : List StockRequestResult) :
    orderIds .serverToHubOrderToDispatchStock stamp target orders = orders.filterMap StockRequestResult.transactionId :=
  lettersFrom_ids rfl (by decide) stamp target orders

variable {stmt : Stmt}

theorem reports_exec {k : stmt.Res → Work α} (ht : ∀ v r, taken v stmt r = []) (hs : sourced stmt = [])
    (hk : ∀ r, Reports ((k r).map f) ts ss) : Reports ((Prog.exec stmt thrown k).map f) ts ss := by
  intro v r
  rw [ht, hs, append_nil, append_nil]
  exact hk r

theorem reports_silent_exec {k : stmt.Res → Work α} (hs : sourced stmt = [])
    (hk : ∀ r ts, Reports ((k r).map f) ts []) : Reports ((Prog.exec stmt thrown k).map f) ts [] := by
  intro v r
  rw [hs]
  exact hk r _

variable {a : α}

theorem reports_commit (hf : (f a).Sublist ts) (hs : ss ⊆ ts) : Reports ((Prog.commit a thrown : Work α).map f) ts ss :=
  ⟨hf, hs⟩

theorem reports_adjustClientInventory {add : Bool} {k : Int → Work α} (hk : ∀ rc, Reports ((k rc).map f) ts ss) :
    Reports ((adjustClientInventory clientId q add thrown k).map f) ts ss := by
  rw [adjustClientInventory]
  split
  · exact hk _
  · exact reports_exec (fun _ _ => rfl) rfl fun _ => hk _

theorem reports_createTransaction {transactionType : TransactionType} {orderTimestamp : String}
    {k : Option Nat → Work α} (hk : ∀ created, Reports ((k created).map f) ts ss) :
    Reports ((createTransaction transactionType clientId clientType q orderTimestamp thrown k).map f) ts ss := by
  rw [createTransaction]
  split
  · exact hk _
  · exact reports_exec (fun _ _ => rfl) rfl fun _ => hk _

theorem reports_getClientInventory {k : Option Quantities → Work α} (hk : ∀ found, Reports ((k found).map f) ts ss) :
    Reports ((getClientInventory clientId clientType thrown k).map f) ts ss := by
  rw [getClientInventory]
  split
  · exact hk _
  · refine reports_exec (fun _ _ => rfl) rfl fun found => ?_
    cases found with
    | some stock => exact hk _
    | none => exact reports_exec (fun _ _ => rfl) rfl fun _ => hk _

theorem reports_handleStockRequest (msg : Message) (stamp : Nat → String) :
    Reports ((handleStockRequest msg).map (requestOrders stamp)) [] [] := by
  refine reports_adjustClientInventory fun _ => reports_createTransaction fun created => ?_
  cases created with
  | none => rfl
  | some id =>
    refine reports_exec (fun _ _ => rfl) rfl fun found => ?_
    cases found with
    | none => exact reports_commit (by simp [requestOrders, emptyResult]) (Subset.refl _)
    | some warehouseId =>
      simp only
      split
      · exact reports_commit (by simp [requestOrders, emptyResult]) (Subset.refl _)
      · intro v _ v' _
        refine reports_commit ?_ (Subset.refl _)
        rw [requestOrders]
        split
        · rw [orderIds_warehouse]
          exact Sublist.refl _
        · exact nil_sublist _

theorem reports_assignFirst (warehouseId : String) (stock : Quantities) (stamp : Nat → String)
    (pending : List TransactionRow) : Reports ((assignFirst warehouseId stock pending).map
      (orderIds .serverToWarehouseOrderToDispatchStockToHub stamp StockRequestResult.assignedWarehouseId)) [] [] := by
  induction pending with
  | nil => exact reports_commit (by rw [orderIds_warehouse]; exact Sublist.refl _) (Subset.refl _)
  | cons t rest ih =>
    rw [assignFirst]
    split
    · exact ih
    · split
      · intro v _ v' _
        exact reports_commit (by rw [orderIds_warehouse]; exact Sublist.refl _) (Subset.refl _)
      · exact ih

theorem reports_assignAll (hubId : String) (stamp : Nat → String) (pending : List TransactionRow) (stock : Quantities)
    (fulfilled : List StockRequestResult) : Reports ((assignAll hubId pending stock fulfilled).map
      (orderIds .serverToHubOrderToDispatchStock stamp StockRequestResult.requestingHubId))
      (fulfilled.filterMap StockRequestResult.transactionId) (fulfilled.filterMap StockRequestResult.transactionId) := by
  induction pending generalizing stock fulfilled with
  | nil => exact reports_commit (by rw [orderIds_hub]) (Subset.refl _)
  | cons t rest ih =>
    rw [assignAll]
    split
    · exact ih _ _
    · split
      · intro v _ v' _
        have hrest := ih (stock - t.quantities)
          (fulfilled ++ [orderResult t.transactionId false hubId hubId t.quantities])
        simpa [taken, sourced, orderResult] using hrest
      · exact ih _ _

def silent (_ : α) : List Nat := []

theorem silent_commit : Reports ((Prog.commit a thrown : Work α).map silent) ts [] :=
  reports_commit (nil_sublist _) (nil_subset _)

theorem silent_adjusted {add : Bool} {thrown' : α} {k : stmt.Res → Work α} (hs : sourced stmt = [])
    (hk : ∀ r ts, Reports ((k r).map silent) ts []) : Reports ((adjustClientInventory clientId q add thrown fun rc =>
      if rc ≠ 0 then .rollback a else .exec stmt thrown' k).map silent) ts [] := by
  apply reports_adjustClientInventory
  intro rc
  split
  · rfl
  · exact reports_silent_exec hs hk

theorem reports_handleReplenishRequest (msg : Message) : Reports ((handleReplenishRequest msg).map silent) [] [] := by
  rw [handleReplenishRequest]
  refine reports_createTransaction fun created => ?_
  cases created with
  | none => rfl
  | some id => exact reports_silent_exec rfl fun _ _ => silent_commit

theorem reports_handleShipmentNotice (msg : Message) : Reports ((handleShipmentNotice msg).map silent) [] [] := by
  refine reports_exec (fun _ _ => rfl) rfl fun found => ?_
  cases found with
  | none =>
    refine reports_exec (fun _ _ => rfl) rfl fun dispatched => ?_
    cases dispatched with
    | some id => rfl
    | none =>
      refine reports_exec (fun _ _ => rfl) rfl fun completed => ?_
      cases completed <;> rfl
  | some id =>
    refine silent_adjusted rfl fun _ _ => reports_exec (fun _ _ => rfl) rfl fun record => ?_
    cases record <;> exact silent_commit

theorem reports_insertOrder (hubId : Option String) (q : Quantities) (stamp : String) :
    Reports ((insertOrder (hubId.getD "") (if hubId.isSome then .assigned else .pending) q).map
      (gatewayOrder hubId q stamp)) [] [] := by
  intro v id
  refine reports_commit ?_ (nil_subset _)
  cases hubId with
  | none => exact nil_sublist _
  | some hubId =>
    obtain ⟨m, hm, htype, -⟩ := createItemsMessage_eq
      (show prefixRoles MsgType.serverToHubOrderToDispatchStock.text = some (server, hub) by decide) server hubId
      (itemsOf (positiveItems q)) (positiveItems q).length none stamp
    have horder : gatewayOrder (some hubId) q stamp (some id) = [id] := by
      simp only [gatewayOrder, bind_some, hm, map_some, MessageHandler.makeSendToUsername,
        toList_some, lettersOf, getD_some, filterMap_cons, letterOf, htype, isLetter, if_true,
        filterMap_nil, map_cons, map_nil]
    rw [horder]
    exact Sublist.refl _

theorem reports_work (job : Job) : Reports job.work [] [] := by
  cases job with
  | storeInventory msg =>
    rw [Job.work, InventoryManager.storeInventory, updateClientInventory]
    split
    · exact silent_commit
    · exact reports_exec (fun _ _ => rfl) rfl fun _ => silent_commit
  | stockRequest msg stamp => exact reports_handleStockRequest msg stamp
  | replenishRequest msg => exact reports_handleReplenishRequest msg
  | receiptConfirmation msg | dispatchConfirmation msg =>
    rw [Job.work]
    refine reports_exec (fun _ _ => rfl) rfl fun found => ?_
    cases found with
    | none => exact reports_exec (fun _ _ => rfl) rfl fun _ => rfl
    | some id => exact silent_adjusted rfl fun _ _ => silent_commit
  | shipmentNotice msg => exact reports_handleShipmentNotice msg
  | pendingOrders warehouseId stamp =>
    refine reports_getClientInventory fun stock => ?_
    cases stock with
    | none => exact (orderIds_warehouse ..).trans rfl
    | some stock =>
      refine reports_exec (fun _ _ => rfl) rfl fun rows => ?_
      simp only
      split
      · exact (orderIds_warehouse ..).trans rfl
      · exact reports_assignFirst ..
  | pendingGatewayOrders hubId stamp =>
    refine reports_getClientInventory fun stock => ?_
    cases stock with
    | none => exact (orderIds_hub ..).trans rfl
    | some stock =>
      refine reports_exec (fun _ _ => rfl) rfl fun rows => ?_
      simp only
      split
      · exact (orderIds_hub ..).trans rfl
      · exact reports_assignAll ..
  | inventoryMessage clientId clientType =>
    refine reports_getClientInventory fun stock => ?_
    cases stock with
    | none => rfl
    | some stock => exact silent_commit
  | findHub q | findStatus id =>
    rw [Job.work]
    exact reports_exec (fun _ _ => rfl) rfl fun _ => silent_commit
  | insertOrder hubId q stamp => exact reports_insertOrder hubId q stamp

/-- Whatever the interleaving: as long as every UPDATE finds its row where the
handler read it and no handler fails with orders to send, each transaction is
assigned by one committed handler and one order goes out for it. -/
theorem transactions_assigned_once {n : Nat} (s t : State n) (moves : List (Move n)) (hinit : Init s)
    (hmeets : MeetsAlong s moves) (hrun : s.run moves = some t) : SingleAssignment t :=
  (inv_run reports_work (inv_init hinit) hmeets hrun).single

def restocked : Db :=
  { handled (itemsMessage .hubToServerStockRequest hub "hub_1" "2026-01-01" (oneItem 1 5)) emptyDb with
    inventory := ⟨[⟨"wh_1", warehouse, fun _ => 50, 0⟩, ⟨"wh_2", warehouse, fun _ => 50, 0⟩], by decide⟩ }

def idle (db : Db) : State 2 := ⟨db, fun _ => none, [], []⟩

def lookForOrders (schedule : List (Fin 2)) : List (Move 2) :=
  .start ⟨0, Nat.two_pos⟩ (.pendingOrders "wh_1" fun _ => "2026-01-02") ::
    .start ⟨1, Nat.one_lt_two⟩ (.pendingOrders "wh_2" fun _ => "2026-01-02") ::
    schedule.map fun w => .advance w plainEnv

theorem transactions_assigned_once_serial :
    SingleAssignment (((idle restocked).run (lookForOrders [0, 0, 1, 0, 0, 0, 1, 1])).get (by decide)) :=
  transactions_assigned_once (idle restocked) _ (lookForOrders [0, 0, 1, 0, 0, 0, 1, 1]) ⟨fun _ => rfl, rfl, rfl⟩
    (by decide) (some_get _).symm

theorem transactions_assigned_twice : Init (idle restocked) ∧
      ¬ ∀ t ∈ (idle restocked).run (lookForOrders [0, 0, 1, 1, 0, 0, 0, 1, 1, 1]), SingleAssignment t := by
  refine ⟨⟨fun _ => rfl, rfl, rfl⟩, fun h => ?_⟩
  have hsome : ((idle restocked).run (lookForOrders [0, 0, 1, 1, 0, 0, 0, 1, 1, 1])).isSome := by decide
  have horders : ((idle restocked).run (lookForOrders [0, 0, 1, 1, 0, 0, 0, 1, 1, 1])).map State.orders =
      some [1, 1] := by decide
  obtain ⟨t, ht⟩ := isSome_iff_exists.mp hsome
  have hnodup := (h t ht).orders
  rw [ht, map_some] at horders
  rw [some_injective _ horders] at hnodup
  exact absurd hnodup (by decide)

end Logistics.Sessions
