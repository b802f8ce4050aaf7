import Logistics.OrderMatching
import Logistics.WorkerSurvival

namespace Logistics.StrandedOrders

open KeyedTable JsonManager Database InventoryManager InventorySpec PendingSpec List Option
open MessageHandler OrderMatching

variable {db db' d : Db} {a : Attempt} {t : TransactionRow} {sent more : List Response}

def isOrder : MsgType → Bool
  | .serverToWarehouseOrderToDispatchStockToHub | .serverToHubOrderToDispatchStock => true
  | _ => false

def OrderOf (t : TransactionRow) (r : Response) : Prop :=
  ∃ source m, t.sourceId = some source ∧ isOrder m.msgType = true ∧
    r = makeSendToUsername source m (some t.transactionId)

def Emits (db db' : Db) (sent : List Response) : Prop :=
  ∀ t ∈ db'.transactions.rows, t.status = .assigned → t ∈ db.transactions.rows ∨ ∃ r ∈ sent, OrderOf t r

theorem Emits.of_eq (h : db'.transactions = db.transactions) : Emits db db' sent :=
  fun _ ht _ => .inl (h ▸ ht)

theorem Emits.mono (h : Emits db db' sent) (hsub : sent ⊆ more) : Emits db db' more := by
  intro t ht hst
  refine (h t ht hst).imp_right ?_
  rintro ⟨r, hr, ho⟩
  exact ⟨r, hsub hr, ho⟩

theorem Emits.trans (h : Emits db d sent) (h' : Emits d db' more) : Emits db db' (sent ++ more) := by
  intro t ht hst
  rcases h' t ht hst with ht | ⟨r, hr, ho⟩
  · exact h.mono (subset_append_left _ _) t ht hst
  · exact .inr ⟨r, mem_append_right _ hr, ho⟩

theorem Emits.after_eq (h : d.transactions = db.transactions) (h' : Emits d db' sent) : Emits db db' sent :=
  fun t ht hst => (h' t ht hst).imp_left fun hd => h ▸ hd

theorem emits_insertRow {row : Nat → TransactionRow} (hrow : ∀ id, (row id).transactionId = id)
    (h : (row db.nextId).status = .assigned → ∃ r ∈ sent, OrderOf (row db.nextId) r) :
    Emits db (db.insertRow row hrow) sent := by
  intro t ht hst
  rcases mem_append.mp ht with ht | ht
  · exact .inl ht
  · rw [mem_singleton.mp ht] at hst ⊢
    exact .inr (h hst)

theorem emits_update {id : Nat} {f : TransactionRow → TransactionRow}
    {hf : ∀ t, (f t).transactionId = t.transactionId} (hd : d.transactions = db.transactions)
    (hto : ∀ t, (f t).status ≠ .assigned) : Emits db (d.updateTransaction id f hf) [] := by
  intro t ht hst
  rcases mem_updateRows.mp ht with ⟨ht, -⟩ | ⟨r, -, -, rfl⟩
  · exact .inl (hd ▸ ht)
  · exact absurd hst (hto r)

variable {msgType : MsgType}

theorem isOrder_delivers (h : isOrder msgType = true) : (prefixRoles msgType.text).isSome := by
  cases msgType <;> first | exact absurd h Bool.false_ne_true | decide

theorem orderOf_dispatchOrders (h : isOrder msgType = true) {stamp : Nat → String}
    {target : StockRequestResult → String} {orders : List StockRequestResult} {r : StockRequestResult}
    (hr : r ∈ orders) (hsource : t.sourceId = some (target r)) (hid : r.transactionId = some t.transactionId) :
    ∃ x ∈ dispatchOrders msgType stamp target orders, OrderOf t x := by
  obtain ⟨i, hi, rfl⟩ := mem_iff_getElem.mp hr
  obtain ⟨m, hm, htype, -⟩ := dispatchOrder_eq (isOrder_delivers h) (stamp i) (target orders[i]) orders[i]
  refine ⟨_, ?_, target orders[i], m, hsource, htype ▸ h, rfl⟩
  rw [dispatchOrders, reduceOption_mem_iff]
  refine mem_map.mpr ⟨(orders[i], i), mk_mem_zipIdx_iff_getElem?.mpr (by simp [hi]), ?_⟩
  rw [hm, hid]
  rfl

theorem emits_processPendingOrders (warehouseId : String) (stamp : Nat → String) :
    Emits db (perform a (processPendingOrders warehouseId) db).2
      (dispatchOrders .serverToWarehouseOrderToDispatchStockToHub stamp StockRequestResult.assignedWarehouseId
        (perform a (processPendingOrders warehouseId) db).1) := by
  rcases perform_cases a (processPendingOrders warehouseId) db with ⟨r, w, he⟩ | hc
  · rw [he]
    exact .of_eq rfl
  · generalize perform a (processPendingOrders warehouseId) db = fulfilled at hc ⊢
    obtain ⟨orders, db'⟩ := fulfilled
    obtain ⟨-, h⟩ := commits_processPendingOrders_eq_some hc
    split at h
    · obtain ⟨rfl, rfl⟩ := h
      exact .of_eq (ensureInventory_transactions ..)
    · obtain ⟨rfl, rfl⟩ := h
      intro t ht _
      rcases mem_assign ht with ht | ⟨-, hid, hsource⟩
      · exact .inl (ensureInventory_transactions .. ▸ ht)
      · exact .inr (orderOf_dispatchOrders rfl (mem_singleton_self _) hsource (congrArg some hid.symm))

theorem emits_pendingGatewayOrders (stamp : Nat → String) :
    Emits db (pendingGatewayOrders a stamp msg db).2 (pendingGatewayOrders a stamp msg db).1 := by
  rw [pendingGatewayOrders]
  split
  · rcases perform_cases a (processPendingGatewayOrders msg.sourceId) db with ⟨r, w, he⟩ | hc
    · rw [he]
      exact .of_eq rfl
    · rw [commits_processPendingGatewayOrders] at hc
      split at hc
      · cases hc
      · rw [← some.inj hc]
        intro t ht _
        rcases mem_assignEach ht with ht | ⟨-, o, ho, hid, hsource⟩
        · exact .inl (ensureInventory_transactions .. ▸ ht)
        · exact .inr (orderOf_dispatchOrders rfl (mem_map_of_mem ho) hsource (congrArg some hid.symm))
  · exact .of_eq rfl

open ApiGateway Ipc Deserialize Worker

variable {msg : Message}

theorem perform_transactions {α : Type} {work : Work α}
    (h : ∀ r d, commits a.env work db = some (r, d) → d.transactions = db.transactions) :
    (perform a work db).2.transactions = db.transactions :=
  perform_induct (P := fun d => d.transactions = db.transactions) a work db (fun _ => rfl) h

theorem storeInventory_transactions : (perform a (storeInventory msg) db).2.transactions = db.transactions := by
  apply perform_transactions
  intro r d hc
  rw [commits_storeInventory] at hc
  split at hc
  · cases hc
    rfl
  · obtain ⟨ts, -, he⟩ := map_eq_some_iff.mp hc
    cases he
    rfl

theorem emits_settling {α : Type} {work : Work α} {sourceId destinationId : String} {status : Status} {add : Bool}
    {finish : Nat → Db → Int → α × Db}
    (hwork : commits a.env work db = settling a.env db msg sourceId destinationId status add finish)
    (hfinish : ∀ id d ts, d.transactions = db.transactions → Emits db (finish id d ts).2 []) :
    Emits db (perform a work db).2 [] := by
  refine perform_induct (P := fun d => Emits db d []) a work db (fun _ => .of_eq rfl) fun r db' hc => ?_
  rw [hwork] at hc
  obtain ⟨-, id, d, ts, -, hd, -, he⟩ := settling_eq_some.mp hc
  have hemits := hfinish id d ts (adjustInventory_transactions hd).1
  rwa [he] at hemits

theorem emits_handleStockRequest (stamp : String) : Emits db (perform a (handleStockRequest msg) db).2
    (requestOrder stamp (perform a (handleStockRequest msg) db).1) := by
  rcases perform_cases a (handleStockRequest msg) db with ⟨r, w, he⟩ | hc
  · rw [he]
    exact .of_eq rfl
  · generalize perform a (handleStockRequest msg) db = requested at hc ⊢
    obtain ⟨result, db'⟩ := requested
    obtain ⟨hne, -, d, ts, found, hd, -, -, rfl, rfl⟩ := commits_handleStockRequest_eq_some hc
    have hid := (adjustInventory_transactions hd).2
    refine .after_eq (adjustInventory_transactions hd).1 (emits_insertRow (fun _ => rfl) fun hst => ?_)
    cases found with
    | none => cases hst
    | some w =>
      have horder : isOrder .serverToWarehouseOrderToDispatchStockToHub = true := rfl
      obtain ⟨m, hm, htype, -⟩ := dispatchOrder_eq (isOrder_delivers horder) stamp w
        (requestResult msg db.nextId (some w))
      refine ⟨_, ?_, w, m, rfl, by rw [htype]; rfl, rfl⟩
      rw [requestOrder, if_pos ⟨rfl, rfl, hne⟩, mem_toList]
      exact hm.trans (by rw [← hid]; rfl)

theorem emits_cmdCreateShipment (attempt : Nat → Attempt) (connected : Bool) (stamp : String)
    (items : Option (List (Option Int × Option Int))) :
    Emits db (cmdCreateShipment attempt connected stamp items db).2.2
      (forwarded (cmdCreateShipment attempt connected stamp items db).2.1) := by
  simp only [cmdCreateShipment]
  split
  · exact .of_eq rfl
  split
  · exact .of_eq rfl
  · exact .of_eq rfl
  next items _ =>
  have hfound : (perform (attempt 0) (findHub (orderQuantities items)) db).2.transactions = db.transactions := by
    apply perform_transactions
    intro r d hc
    cases hc
    rfl
  generalize perform (attempt 0) (findHub (orderQuantities items)) db = found at hfound ⊢
  obtain ⟨hubId, d⟩ := found
  rcases perform_cases (attempt 1) (insertOrder ((hubId.map (safeStrcpy idSize)).getD "")
    (if (hubId.map (safeStrcpy idSize)).isSome then .assigned else .pending) (orderQuantities items)) d
    with ⟨r, w, he⟩ | hc
  · rw [he]
    split <;> exact .of_eq hfound
  · rw [← some.inj hc]
    refine .after_eq hfound (emits_insertRow (fun _ => rfl) fun hst => ?_)
    cases hubId with
    | none => cases hst
    | some c =>
      obtain ⟨m, hm, htype, -⟩ := createItemsMessage_eq
        (show prefixRoles MsgType.serverToHubOrderToDispatchStock.text = some (server, hub) by decide) server
        (safeStrcpy idSize c) (itemsOf (positiveItems (orderQuantities items)))
        (positiveItems (orderQuantities items)).length none stamp
      refine ⟨_, ?_, safeStrcpy idSize c, m, rfl, by rw [htype]; rfl, rfl⟩
      simp only [forwarded, map_some, bind_some, hm, toList_some]
      exact mem_singleton_self _

theorem emits_of_handles {o : Oracle} {sessionId : String} {c : MessageCategory}
    (h : Handles o sessionId msg c db db' sent) : Emits db db' sent := by
  have hdispatched : Status.dispatched ≠ .assigned := by decide
  induction h with
  | none => exact .of_eq rfl
  | aside _ _ ih => exact ih.mono (nil_subset _)
  | reply _ _ _ ih => exact ih.mono (subset_cons_self _ _)
  | after _ _ _ ih ih' => exact ih.trans ih'
  | store => exact .of_eq storeInventory_transactions
  | pendingOrders => exact emits_processPendingOrders _ _
  | gatewayOrders => exact emits_pendingGatewayOrders _
  | stockRequest => exact emits_handleStockRequest _
  | receipt =>
    exact emits_settling commits_handleReceiptConfirmation fun _ _ _ hd => emits_update hd fun _ => by rintro ⟨⟩
  | dispatch =>
    exact emits_settling commits_handleDispatchConfirmation fun _ _ _ hd => emits_update hd fun _ => hdispatched
  | notice => exact emits_settling commits_handleShipmentNotice fun _ _ _ hd => emits_update hd fun _ => hdispatched
  | @replenish db =>
    refine perform_induct (P := fun d => Emits db d []) (o.attempt 0) _ db (fun _ => .of_eq rfl) fun r d hc => ?_
    rw [commits_handleReplenishRequest] at hc
    split at hc
    · cases hc
    · obtain ⟨ts, -, he⟩ := bind_eq_some_iff.mp hc
      cases he
      exact emits_insertRow (fun _ => rfl) fun hst => absurd hst hdispatched
  | create => exact emits_cmdCreateShipment _ _ _ _
  | status =>
    refine .of_eq (perform_transactions fun r d hc => ?_)
    cases hc
    rfl

def IsSlot (cfg : Config) (id : Nat) (client : String) (resp : Slot) : Prop :=
  ∃ msg, isOrder msg.msgType = true ∧ resp = slotOf cfg (MessageHandler.makeSendToUsername client msg (some id))

theorem clientInventoryMessage_transactions (stamp clientId clientType : String) :
    (clientInventoryMessage a stamp clientId clientType db).2.transactions = db.transactions := by
  apply perform_transactions
  intro r d hc
  rw [getClientInventoryMessage, commits_getClientInventory] at hc
  split at hc
  · cases hc
  · cases hc
    exact ensureInventory_transactions ..

theorem handleAuthRequest_transactions (cfg : Config) (o : Oracle) (msg : Message) (req : RequestSlot) (store : Store) :
    (handleAuthRequest cfg o msg req store).2.db.transactions = store.db.transactions := by
  rw [handleAuthRequest]
  split
  · rfl
  · split
    · dsimp only
      split
      · exact clientInventoryMessage_transactions _ _ _
      · rfl
    · rfl

theorem emits_processRequest (cfg : Config) (parse : String → Option Json) (o : Oracle) (req : RequestSlot)
    (store : Store) {t : TransactionRow} (ht : t ∈ (processRequest cfg parse o req store).2.db.transactions.rows)
    (hst : t.status = .assigned) : t ∈ store.db.transactions.rows ∨ ∃ source, t.sourceId = some source ∧
    ∃ resp ∈ (processRequest cfg parse o req store).1.getD [], IsSlot cfg t.transactionId source resp := by
  rcases processRequest_cases cfg parse o req store with hc | ⟨-, -, he⟩ | ⟨root, -, he⟩
  · rw [processRequest, if_pos hc] at ht
    exact .inl ht
  · rw [he] at ht
    exact .inl ht
  · rw [he, handleMessage] at ht ⊢
    have hother (ht : t ∈ (handleOtherMessage o req.sessionId (deserializeMessage root) (readCommand root)
        store.db).2.transactions.rows) : t ∈ store.db.transactions.rows ∨ ∃ source, t.sourceId = some source ∧
          ∃ resp ∈ ((handleOtherMessage o req.sessionId (deserializeMessage root) (readCommand root)
            store.db).1.map (List.map (slotOf cfg))).getD [], IsSlot cfg t.transactionId source resp := by
      refine (emits_of_handles (handles_handleOtherMessage o req.sessionId _ _ store.db) t ht hst).imp_right ?_
      rintro ⟨r, hr, source, m, hsource, horder, rfl⟩
      refine ⟨source, hsource, _, ?_, m, horder, rfl⟩
      cases hout : (handleOtherMessage o req.sessionId (deserializeMessage root) (readCommand root) store.db).1 with
      | none =>
        rw [hout] at hr
        cases hr
      | some out =>
        rw [hout] at hr
        exact mem_map_of_mem hr
    cases hcat : categorizeMessage (deserializeMessage root).msgType with
    | authRequest =>
      simp only [hcat] at ht
      exact .inl (handleAuthRequest_transactions cfg o _ req store ▸ ht)
    | ackMessage | keepaliveMsg =>
      simp only [hcat] at ht
      exact .inl ht
    | _ =>
      simp only [hcat] at ht ⊢
      exact hother ht

end Logistics.StrandedOrders
