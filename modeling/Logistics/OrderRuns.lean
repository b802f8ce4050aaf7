import Logistics.Idempotence
import Logistics.OrderMatching
import Logistics.PendingPasses

namespace Logistics.OrderMatching

open KeyedTable JsonManager Database InventoryManager InventorySpec PendingSpec List Option SettledRows MessageHandler
open ApiGateway Lifecycle

variable {msg : Message} {db db' d : Db} {a : Attempt} {l : Letter}

theorem issues_storeInventory (hp : PendingShippable db) : Issues db (perform a (storeInventory msg) db).2 [] := by
  refine perform_induct (P := fun d => Issues db d []) a _ db (fun _ => .of_eq hp rfl) fun r db' hc => ?_
  rw [commits_storeInventory] at hc
  split at hc
  · cases hc
    exact .of_eq hp rfl
  · obtain ⟨ts, -, he⟩ := map_eq_some_iff.mp hc
    cases he
    exact .of_eq hp rfl

theorem issues_handleReplenishRequest (hp : PendingShippable db) :
    Issues db (perform a (handleReplenishRequest msg) db).2 [] := by
  refine perform_induct (P := fun d => Issues db d []) a _ db (fun _ => .of_eq hp rfl) fun r db' hc => ?_
  rw [commits_handleReplenishRequest] at hc
  split at hc
  · cases hc
  · obtain ⟨ts, -, he⟩ := bind_eq_some_iff.mp hc
    cases he
    exact issues_insertRow hp (fun _ => rfl) (fun h => by cases h) (by simp) nodup_nil

theorem issues_getClientInventoryMessage (hp : PendingShippable db) (clientId clientType : String) :
    Issues db (perform a (getClientInventoryMessage clientId clientType) db).2 [] := by
  refine perform_induct (P := fun d => Issues db d []) a _ db (fun _ => .of_eq hp rfl) fun r db' hc => ?_
  rw [getClientInventoryMessage, commits_getClientInventory] at hc
  split at hc
  · cases hc
  · cases hc
    exact .of_eq hp (ensureInventory_transactions ..)

theorem issues_handleStockRequest (hp : PendingShippable db) (hfault : a.fault = none)
    (hpacked : Packed msg.items.items) (hlen : msg.sourceId.length < idSize) (stamp : Nat → String) :
    Issues db (perform a (handleStockRequest msg) db).2
      (lettersOf (some (requestOrder (stamp 0) (perform a (handleStockRequest msg) db).1))) := by
  rcases perform_of_no_fault hfault (handleStockRequest msg) db with ⟨hnone, r, w, h⟩ | hc
  · have hfail := perform_of_aborts hfault aborts_handleStockRequest hnone
    simp only [requestOrder, hfail, Bool.false_eq_true, false_and, if_false]
    rw [h]
    exact .of_eq hp rfl
  · generalize perform a (handleStockRequest msg) db = x at hc ⊢
    obtain ⟨hs, -, d, ts, found, ha, -, hfound, hresult, hdb⟩ := commits_handleStockRequest_eq_some
      (show _ = some (x.1, x.2) from hc)
    rw [hresult, hdb]
    obtain ⟨htrans, hid⟩ := adjustInventory_transactions ha
    have hd : PendingShippable d := (Issues.of_eq hp htrans).pending
    have hrow (found : Option String) : Shippable (requestRow msg ts found d.nextId) :=
      ⟨by simp [requestRow], fun _ => ⟨hs, hlen⟩, fun _ => hpacked.2⟩
    cases found with
    | none =>
      simp only [requestOrder, requestResult, isSome_none, Bool.false_eq_true, false_and, and_false, if_false]
      exact .after_eq hp htrans (issues_insertRow hd (fun _ => rfl) (fun _ => hrow _) (by simp [lettersOf]) nodup_nil)
    | some warehouseId =>
      have hw : warehouseId ≠ "" := by simpa using (filter_eq_some_iff.mp hfound).2
      rw [requestOrder, if_pos ⟨rfl, rfl, hs⟩, lettersOf_toList stamp StockRequestResult.assignedWarehouseId]
      refine .after_eq hp htrans (issues_insertRow hd (fun _ => rfl) (fun _ => hrow _) (fun l hl => ?_) ?_)
      · obtain ⟨o, ho, htid, hclient, htype, hq⟩ := mem_lettersFrom (by decide) hl
        rw [mem_singleton.mp ho] at htid hclient hq
        refine ⟨?_, ?_⟩
        · rw [hid]
          exact some_injective _ htid
        · simp only [htype]
          exact ⟨⟨rfl, hrow _, warehouseId, rfl, hw, hclient⟩, by simp [requestRow], hq.trans hpacked.1⟩
      · rw [lettersFrom_ids rfl (by decide)]
        exact nodup_singleton _

variable {t : TransactionRow} {clientId : String}

theorem ordered_assignedTo (clientType : String) (hs : Shippable t) (hne : clientId ≠ "")
    (hclient : l.client = safeStrcpy credentialsSize clientId) : Ordered (assignedTo clientId clientType t) l :=
  ⟨rfl, ⟨hs.type, hs.destination, hs.quantities⟩, clientId, rfl, hne, hclient⟩

theorem issues_assign (hp : PendingShippable db) (ht : t ∈ db.transactions.rows) (hst : t.status = .pending)
    {clientType : String} {new : List Letter} (hawaits : ∀ l ∈ new, Awaits (assignedTo clientId clientType t) l)
    (hnodup : (new.map Letter.transactionId).Nodup) : Issues db (db.assign t.transactionId clientId clientType) new :=
    by
  have hunique (u : TransactionRow) (hu : u ∈ db.transactions.rows) (he : u.transactionId = t.transactionId) :
      u.status = .pending := by
    rw [db.transactions.unique hu ht he, hst]
  refine ⟨fun u hu hst => mem_updateRows.mpr (.inl ⟨hu, fun he => hst (hunique u hu he)⟩), fun u hu hpending => ?_,
    fun l hl => ?_, fun l hl u hu he => ?_, hnodup⟩
  · rcases mem_updateRows.mp hu with ⟨hu, _⟩ | ⟨r, _, _, rfl⟩
    · exact hp u hu hpending
    · cases hpending
  · exact ⟨_, mem_updateRows.mpr (.inr ⟨t, ht, rfl, rfl⟩), hawaits l hl⟩
  · exact hunique u hu (he.trans (hawaits l hl).1.symm)

theorem issues_processPendingOrders (hp : PendingShippable db) (hfault : a.fault = none) (warehouseId : String)
    (stamp : Nat → String) : Issues db (perform a (processPendingOrders warehouseId) db).2
      (lettersFrom .serverToWarehouseOrderToDispatchStockToHub stamp StockRequestResult.assignedWarehouseId
        (perform a (processPendingOrders warehouseId) db).1) := by
  rcases perform_of_no_fault hfault (processPendingOrders warehouseId) db with ⟨hnone, r, w, h⟩ | hc
  · have hnil := perform_of_aborts hfault (aborts_processPendingOrders warehouseId) hnone
    rw [hnil, h]
    exact .of_eq hp rfl
  · generalize perform a (processPendingOrders warehouseId) db = x at hc ⊢
    have htrans : (ensureInventory db a.env.now warehouseId warehouse).2.transactions = db.transactions :=
      ensureInventory_transactions ..
    obtain ⟨hw, hrest⟩ := commits_processPendingOrders_eq_some (show _ = some (x.1, x.2) from hc)
    split at hrest
    · rw [hrest.1, hrest.2]
      exact .of_eq hp htrans
    · next t hfit =>
      rw [hrest.1, hrest.2]
      obtain ⟨ht, hst⟩ := mem_pendingBatch (mem_of_find?_eq_some hfit)
      have htype : t.transactionType ≠ .orderDispatch := by
        have := find?_some hfit
        simp only [ne_eq, decide_eq_true_eq] at this
        exact this.1
      have hship := hp t ht hst
      refine .after_eq hp htrans (issues_assign (Issues.of_eq hp htrans).pending (by rwa [htrans]) hst
        (fun l hl => ?_) ?_)
      · obtain ⟨o, ho, htid, hclient, hmt, hq⟩ := mem_lettersFrom (by decide) hl
        rw [mem_singleton.mp ho] at htid hclient hq
        simp only [orderResult, firstItems_itemsOf] at hq
        rw [extractQuantities_positiveItems (hship.quantities htype)] at hq
        refine ⟨some_injective _ htid, ?_⟩
        simp only [hmt]
        exact ⟨ordered_assignedTo _ hship hw hclient, htype, hq⟩
      · rw [lettersFrom_ids rfl (by decide)]
        exact nodup_singleton _

variable {hubId : String}

theorem issues_assignEach (hp : PendingShippable db) {orders : List TransactionRow}
    (hnodup : (orders.map TransactionRow.transactionId).Nodup)
    (horders : ∀ o ∈ orders, o ∈ db.transactions.rows ∧ o.status = .pending) {new : List Letter}
    (hawaits : ∀ l ∈ new, ∃ o ∈ orders, Awaits (assignedTo hubId hub o) l)
    (hnew : (new.map Letter.transactionId).Nodup) : Issues db (assignEach db hubId orders) new := by
  have hunique (o : TransactionRow) (ho : o ∈ orders) (t : TransactionRow) (ht : t ∈ db.transactions.rows)
      (he : t.transactionId = o.transactionId) : t.status = .pending := by
    rw [db.transactions.unique ht (horders o ho).1 he, (horders o ho).2]
  refine ⟨keepsSettled_assignEach orders hunique, fun t ht hst => ?_, fun l hl => ?_, fun l hl t ht he => ?_, hnew⟩
  · rcases mem_assignEach ht with ht | ⟨ht, -⟩
    · exact hp t ht hst
    · rw [ht] at hst
      cases hst
  · obtain ⟨o, ho, ha⟩ := hawaits l hl
    exact ⟨_, assignedTo_mem_assignEach hnodup ho (horders o ho).1, ha⟩
  · obtain ⟨o, ho, ha⟩ := hawaits l hl
    exact hunique o ho t ht (he.trans ha.1.symm)

theorem issues_processPendingGatewayOrders (hp : PendingShippable db) (hfault : a.fault = none) (hubId : String)
    (stamp : Nat → String) : Issues db (perform a (processPendingGatewayOrders hubId) db).2
      (lettersFrom .serverToHubOrderToDispatchStock stamp StockRequestResult.requestingHubId
        (perform a (processPendingGatewayOrders hubId) db).1) := by
  have hspec := @commits_processPendingGatewayOrders a.env db hubId
  by_cases hnone : hubId = "" ∨ pendingBatch a.env db = []
  · rw [if_pos hnone] at hspec
    rcases perform_of_no_fault hfault (processPendingGatewayOrders hubId) db with ⟨-, r, w, h⟩ | hc
    · have hnil : (perform a (processPendingGatewayOrders hubId) db).1 = [] := OrderCommits.pendingPass_none hnone
      rw [hnil, h]
      exact .of_eq hp rfl
    · rw [hspec] at hc
      cases hc
  · rw [if_neg hnone] at hspec
    have hh : hubId ≠ "" := fun h => hnone (.inl h)
    have htrans : (ensureInventory db a.env.now hubId hub).2.transactions = db.transactions :=
      ensureInventory_transactions ..
    rw [perform_of_commits hfault hspec]
    have hsub := greedy_sublist (ensureInventory db a.env.now hubId hub).1 (pendingBatch a.env db)
    have hnodup := nodup_pendingBatch.sublist (hsub.map TransactionRow.transactionId)
    refine .after_eq hp htrans (issues_assignEach (Issues.of_eq hp htrans).pending hnodup (fun o ho => ?_)
      (fun l hl => ?_) ?_)
    · rw [htrans]
      exact mem_pendingBatch (hsub.subset ho)
    · obtain ⟨r, hr, htid, hclient, hmt, -⟩ := mem_lettersFrom (by decide) hl
      obtain ⟨o, ho, rfl⟩ := mem_map.mp hr
      obtain ⟨hmem, hst⟩ := mem_pendingBatch (hsub.subset ho)
      refine ⟨o, ho, some_injective _ htid, ?_⟩
      simp only [hmt]
      exact ordered_assignedTo _ (hp o hmem hst) hh hclient
    · rw [lettersFrom_ids rfl (by decide), filterMap_map]
      exact (filterMap_eq_map (f := TransactionRow.transactionId)) ▸ hnodup

theorem issues_pendingGatewayOrders (hp : PendingShippable db) (hfault : a.fault = none) (stamp : Nat → String) :
    Issues db (pendingGatewayOrders a stamp msg db).2 (lettersOf (some (pendingGatewayOrders a stamp msg db).1)) := by
  simp only [pendingGatewayOrders]
  split
  · exact issues_processPendingGatewayOrders hp hfault _ stamp
  · exact .of_eq hp rfl

variable {env : Env}

theorem lettersOf_append (sent more : List Response) :
    lettersOf (some (sent ++ more)) = lettersOf (some sent) ++ lettersOf (some more) :=
  filterMap_append

theorem issues_cmdCreateShipment (hs : Sound db) (hp : PendingShippable db) (attempt : Nat → Attempt)
    (hfault : ∀ i, (attempt i).fault = none) (connected : Bool) (stamp : String)
    (items : Option (List (Option Int × Option Int))) :
    Issues db (cmdCreateShipment attempt connected stamp items db).2.2
      (lettersOf (some (forwarded (cmdCreateShipment attempt connected stamp items db).2.1))) := by
  simp only [cmdCreateShipment]
  split
  · exact .of_eq hp rfl
  · split
    · exact .of_eq hp rfl
    · exact .of_eq hp rfl
    · next items _ =>
      have hfound : perform (attempt 0) (findHub (orderQuantities items)) db =
          (db.pickByStock (attempt 0).env hub (orderQuantities items), db) :=
        perform_of_commits (hfault 0) rfl
      have hcreated (sourceId : String) (status : Status) :
          perform (attempt 1) (insertOrder sourceId status (orderQuantities items)) db =
            (some db.nextId, db.insertOrderDispatch sourceId status (orderQuantities items) (attempt 1).env.now) :=
        perform_of_commits (hfault 1) rfl
      simp only [hfound, hcreated]
      have hship (sourceId : String) (status : Status) : Shippable ⟨db.nextId, .orderDispatch, some sourceId, some hub,
          "EXTERNAL_CLIENT", "EXTERNAL_CLIENT", status, orderQuantities items, (attempt 1).env.now, none, none⟩ :=
        ⟨by simp, fun h => absurd rfl h, fun h => absurd rfl h⟩
      cases hpick : db.pickByStock (attempt 0).env hub (orderQuantities items) with
      | none => exact issues_insertRow hp (fun _ => rfl) (fun _ => hship _ _) (by simp [lettersOf, forwarded]) nodup_nil
      | some c =>
        have hne := safeStrcpy_ne_empty (pickByStock_named hs hpick)
        obtain ⟨m, hm, htype, -⟩ := createItemsMessage_eq
          (show prefixRoles MsgType.serverToHubOrderToDispatchStock.text = some (server, hub) by decide) server
          (safeStrcpy idSize c) (itemsOf (positiveItems (orderQuantities items)))
          (positiveItems (orderQuantities items)).length none stamp
        refine issues_insertRow hp (fun _ => rfl) (fun _ => hship _ _) (fun l hl => ?_) (nodup_singleton _)
        rw [mem_singleton.mp hl]
        refine ⟨rfl, ?_⟩
        exact ⟨rfl, hship _ _, _, rfl, hne, rfl⟩

theorem msgType_of_stockReq (h : categorizeMessage msg.msgType = .stockReq) :
    msg.msgType = .hubToServerStockRequest := by
  cases ht : msg.msgType <;> simp [ht, categorizeMessage] at h ⊢

theorem issues_of_handles {o : Oracle} {sessionId : String} {sent : List Response}
    (h : Handles o sessionId msg (categorizeMessage msg.msgType) db db' sent) (hs : Sound db) (hp : PendingShippable db)
    (hfault : ∀ i, (o.attempt i).fault = none) (hlen : msg.sourceId.length < idSize)
    (hpacked : msg.msgType = .hubToServerStockRequest → Packed msg.items.items)
    (hnotice : categorizeMessage msg.msgType ≠ .dispatchNotice)
    (hconfirm : categorizeMessage msg.msgType ≠ .dispatchConfirm)
    (hreceipt : categorizeMessage msg.msgType ≠ .receiptConfirm) : Issues db db' (lettersOf (some sent)) := by
  replace hs : categorizeMessage msg.msgType = .gatewayCommand → Sound db := fun _ => hs
  induction h with
  | none => exact .of_eq hp rfl
  | aside _ hsent ih =>
    have hnone : lettersOf (some _) = [] := filterMap_eq_nil_iff.mpr fun r hr => by
      cases hsent r hr with
      | told hc => exact absurd hc (not_or.mpr ⟨hconfirm, hnotice⟩)
      | _ => rfl
    rw [hnone]
    exact ih hp hs
  | reply _ _ _ ih => exact ih hp hs
  | after hc _ _ ih ih' =>
    have hfirst := ih hp hs
    rw [lettersOf_append]
    exact hfirst.trans (ih' hfirst.pending fun hg => by simp [hg] at hc)
  | store => exact issues_storeInventory hp
  | pendingOrders => exact issues_processPendingOrders hp (hfault 1) _ _
  | gatewayOrders => exact issues_pendingGatewayOrders hp (hfault _) _
  | stockRequest hc => exact issues_handleStockRequest hp (hfault 0) (hpacked (msgType_of_stockReq hc)) hlen o.stamp
  | receipt hc => exact absurd hc hreceipt
  | dispatch hc => exact absurd hc hconfirm
  | notice hc => exact absurd hc hnotice
  | replenish => exact issues_handleReplenishRequest hp
  | create hc => exact issues_cmdCreateShipment (hs hc) hp o.attempt hfault _ _ _
  | @status db _ id =>
    have hfound : perform (o.attempt 0) (findStatus id) db = ((db.transactions.find? id).map TransactionRow.status, db) :=
      perform_of_commits (hfault 0) rfl
    rw [hfound]
    exact .of_eq hp rfl

open KeyedTable PendingSpec SettledRows

variable {t : TransactionRow}

theorem Ordered.source_eq (h : Ordered t l) (hlen : l.client.length < idSize) :
    t.sourceId = some l.client ∧ l.client ≠ "" := by
  obtain ⟨s, hs, hne, hclient⟩ := h.source
  have he : safeStrcpy credentialsSize s = s := by
    apply safeStrcpy_of_not_full
    rw [← hclient]
    exact hlen.trans (by decide)
  rw [hclient, he]
  exact ⟨hs, hne⟩

theorem Ordered.findNewest (h : Ordered t l) (ht : t ∈ db.transactions.rows) (hid : t.transactionId = l.transactionId)
    (hmt : l.message.msgType ≠ .serverToHubIncomingStockNotice) (hlen : l.client.length < idSize)
    (hnew : Newest db l) : db.findNewest env l.client "" .assigned = some l.transactionId := by
  obtain ⟨hsource, hne⟩ := h.source_eq hlen
  rw [← hid]
  refine findNewest_of_newest ht ⟨.inr hsource, .inl rfl, h.status⟩ fun u hu hm hdiff => ?_
  have hu' := hnew t ht u hu hid (by rwa [← hid])
  rw [if_neg hmt] at hu'
  exact hu' ⟨hm.2.2, hm.1.resolve_left hne⟩

theorem findNewest_notice (ht : t ∈ db.transactions.rows) (ha : Awaits t l)
    (hmt : l.message.msgType = .serverToHubIncomingStockNotice) (hnew : Newest db l) :
    l.client ≠ "" ∧ db.findNewest env "" l.client .dispatched = some l.transactionId := by
  obtain ⟨hid, hrest⟩ := ha
  simp only [hmt] at hrest
  obtain ⟨hst, -, hdest, hne⟩ := hrest
  refine ⟨hne, ?_⟩
  rw [← hid]
  refine findNewest_of_newest ht ⟨.inl rfl, .inr hdest, hst⟩ fun u hu hm hdiff => ?_
  have hu' := hnew t ht u hu hid (by rwa [← hid])
  rw [if_pos hmt] at hu'
  exact hu' ⟨hm.2.2, hm.2.1.resolve_left hne⟩

variable {status : Status}

theorem marks_update {f : TransactionRow → TransactionRow} {hf : ∀ t, (f t).transactionId = t.transactionId}
    (hd : d.transactions = db.transactions) (ht : t ∈ db.transactions.rows) (hst : t.status ≠ status)
    (hto : (f t).status = status) : Marks status t.transactionId db (d.updateTransaction t.transactionId f hf) := by
  refine ⟨fun u hu he => ?_, ⟨f t, mem_updateRows.mpr (.inr ⟨t, by rwa [hd], rfl, rfl⟩), hf t, hto⟩, fun k hk => ?_⟩
  · rwa [db.transactions.unique hu ht he]
  · constructor
    · rintro ⟨u, hu, rfl, hs⟩
      exact ⟨u, mem_updateRows.mpr (.inl ⟨by rwa [hd], hk⟩), rfl, hs⟩
    · rintro ⟨u, hu, rfl, hs⟩
      rcases mem_updateRows.mp hu with ⟨hu, _⟩ | ⟨r, _, hr, rfl⟩
      · exact ⟨u, by rwa [← hd], rfl, hs⟩
      · exact absurd ((hf r).trans hr) hk

theorem Marks.then {id : Nat} (h : Marks status id db d) (hp : status ≠ .pending) (hkept : KeepsSettled d db')
    (hold : ∀ t ∈ db'.transactions.rows, t.status = status → t ∈ d.transactions.rows) : Marks status id db db' := by
  obtain ⟨t, ht, hid, hst⟩ := h.after
  refine ⟨h.before, ⟨t, hkept t ht (by rwa [hst]), hid, hst⟩, fun k hk => (h.others k hk).trans ⟨?_, ?_⟩⟩
  · rintro ⟨u, hu, he, hs⟩
    exact ⟨u, hkept u hu (by rwa [hs]), he, hs⟩
  · rintro ⟨u, hu, he, hs⟩
    exact ⟨u, hold u hu hs, he, hs⟩

theorem completed_pendingGatewayOrders (stamp : Nat → String) :
    ∀ t ∈ (pendingGatewayOrders a stamp msg db).2.transactions.rows, t.status = .completed →
      t ∈ db.transactions.rows := by
  simp only [pendingGatewayOrders]
  split
  · refine perform_induct (P := fun d => ∀ t ∈ d.transactions.rows, t.status = .completed → t ∈ db.transactions.rows)
      a _ db (fun _ t ht _ => ht) fun r db' hc => ?_
    obtain ⟨-, rfl⟩ := commits_processPendingGatewayOrders_eq_some hc
    intro t ht hst
    rcases mem_assignEach ht with ht | ⟨ht, -⟩
    · rwa [ensureInventory_transactions] at ht
    · rw [ht] at hst
      cases hst
  · exact fun t ht _ => ht

end Logistics.OrderMatching
