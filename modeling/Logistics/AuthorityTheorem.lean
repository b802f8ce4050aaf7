import Logistics.Authority

namespace Logistics.Authority

open KeyedTable JsonManager Database InventoryManager InventorySpec ApiGateway MessageHandler List
open RowVersions Worker Deserialize Ipc Scenario

variable {cfg : Config} {parse : String → Option Json} {req : RequestSlot} {root : Json} {msg : Message}

def readingEnv : Env := { plainEnv with parseTimestamp := fun _ => some 0 }

def firstOnly : Oracle := ⟨fun n => ⟨readingEnv, if n = 0 then none else some 0⟩, fun _ => "", true, true, true⟩

theorem perform_first_fails {α : Type} (env : Env) (work : Work α) (db : Db) :
    (perform ⟨env, some 0⟩ work db).2 = db.undo db := by
  cases work <;> rfl

theorem firstOnly_pendingGatewayOrders (n : Nat) (stamp : Nat → String) (msg : Message) (db : Db) :
    (pendingGatewayOrders (firstOnly.attempt (n + 1)) stamp msg db).2.inventory = db.inventory ∧
      (pendingGatewayOrders (firstOnly.attempt (n + 1)) stamp msg db).2.transactions = db.transactions := by
  rw [pendingGatewayOrders]
  split
  · change (perform ⟨readingEnv, some 0⟩ _ db).2.inventory = _ ∧ (perform ⟨readingEnv, some 0⟩ _ db).2.transactions = _
    rw [perform_first_fails]
    exact ⟨rfl, rfl⟩
  · exact ⟨rfl, rfl⟩

variable {username clientType sessionId : String} {command : Command}

theorem inventory_invUpdate (hcat : categorizeMessage msg.msgType = .invUpdate) (hid : msg.sourceId ≠ "")
    (hrole : msg.sourceRole ≠ "") : (handleOtherMessage firstOnly sessionId msg command emptyDb).2.inventory =
    (emptyDb.upsertInventory ⟨msg.sourceId, msg.sourceRole, extractQuantities msg.items.items, 0⟩).inventory := by
  let row : InventoryRow := ⟨msg.sourceId, msg.sourceRole, extractQuantities msg.items.items, 0⟩
  have hstore : perform (firstOnly.attempt 0) (storeInventory msg) emptyDb = (true, emptyDb.upsertInventory row) := by
    refine perform_of_commits rfl ?_
    rw [commits_storeInventory, if_neg (by simp [hid, hrole])]
    rfl
  have hupdate : (handleInventoryUpdate firstOnly.attempt msg emptyDb).2.inventory =
      (emptyDb.upsertInventory row).inventory := by
    simp only [handleInventoryUpdate, hstore]
    split
    · rfl
    · split
      · change (perform ⟨readingEnv, some 0⟩ _ (emptyDb.upsertInventory row)).2.inventory = _
        rw [perform_first_fails]
        rfl
      · rfl
  simp only [handleOtherMessage, hcat]
  split
  · exact hupdate
  · exact (firstOnly_pendingGatewayOrders 1 _ msg _).1.trans hupdate

variable {db d : Db}

theorem not_respects_insertRow {row : Nat → TransactionRow} {hrow : ∀ id, (row id).transactionId = id}
    (hbefore : db.transactions.rows = []) (hown : ¬ Concerns username (row d.nextId))
    (htype : (row d.nextId).transactionType ≠ .orderDispatch) :
    ¬ DbRespects username clientType db (d.insertRow row hrow) := by
  intro h
  rcases h.changed (row d.nextId) (mem_append_right _ (mem_singleton_self _)) with ht | ht | ⟨-, ht, -⟩
  · rw [hbefore] at ht
    cases ht
  · exact hown ht
  · exact htype ht

section Requests

variable (hother : msg.sourceId ≠ username) (hid : msg.sourceId ≠ "") (hrole : msg.sourceRole ≠ "")
include hother hid hrole

theorem breach_invUpdate (hcat : categorizeMessage msg.msgType = .invUpdate) :
    ¬ DbRespects username clientType emptyDb (handleOtherMessage firstOnly sessionId msg command emptyDb).2 := by
  intro h
  have hkept := h.inventory msg.sourceId hother
  rw [inventory_invUpdate hcat hid hrole, Db.upsertInventory, find?_put, if_pos rfl] at hkept
  cases hkept

theorem breach_stockReq (hcat : categorizeMessage msg.msgType = .stockReq) :
    ¬ DbRespects username clientType emptyDb (handleOtherMessage firstOnly sessionId msg command emptyDb).2 := by
  have hcommit : ∃ r, ∃ d : Db, commits readingEnv (handleStockRequest msg) emptyDb =
      some (r, d.insertRow (requestRow msg 0 none) fun _ => rfl) := by
    rw [commits_handleStockRequest, if_neg (by simp [hid, hrole])]
    exact ⟨_, _, rfl⟩
  obtain ⟨r, d, hcommit⟩ := hcommit
  have hperform : perform (firstOnly.attempt 0) (handleStockRequest msg) emptyDb =
      (r, d.insertRow (requestRow msg 0 none) fun _ => rfl) := perform_of_commits rfl hcommit
  have hsame : (handleOtherMessage firstOnly sessionId msg command emptyDb).2 =
      d.insertRow (requestRow msg 0 none) fun _ => rfl := by
    simp only [handleOtherMessage, hcat, hperform]
    split <;> rfl
  rw [hsame]
  refine not_respects_insertRow rfl (fun h => h.elim ?_ hother) ?_
  · rintro ⟨⟩
  · rintro ⟨⟩

theorem breach_replenishReq (hcat : categorizeMessage msg.msgType = .replenishReq) :
    ¬ DbRespects username clientType emptyDb (handleOtherMessage firstOnly sessionId msg command emptyDb).2 := by
  have hcommit : ∃ r, commits readingEnv (handleReplenishRequest msg) emptyDb =
      some (r, emptyDb.insertRow (replenishRow msg 0) fun _ => rfl) := by
    rw [commits_handleReplenishRequest, if_neg (by simp [hid, hrole])]
    exact ⟨_, rfl⟩
  obtain ⟨r, hcommit⟩ := hcommit
  have hperform : perform (firstOnly.attempt 0) (handleReplenishRequest msg) emptyDb =
      (r, emptyDb.insertRow (replenishRow msg 0) fun _ => rfl) := perform_of_commits rfl hcommit
  have hsame : (handleOtherMessage firstOnly sessionId msg command emptyDb).2 =
      emptyDb.insertRow (replenishRow msg 0) fun _ => rfl := by
    simp only [handleOtherMessage, hcat, hperform]
    split
    · split <;> rfl
    · rfl
  rw [hsame]
  refine not_respects_insertRow rfl (fun h => h.elim ?_ hother) ?_
  · rintro ⟨⟩
  · rintro ⟨⟩

end Requests

section Confirmations

variable {sourceId : Option String} {destinationId : String} {status : Status}

def oneRow (sourceId : Option String) (destinationId : String) (status : Status) : TransactionRow :=
  ⟨1, .stockRequest, sourceId, none, destinationId, "", status, 0, 0, none, none⟩

def oneRowDb (sourceId : Option String) (destinationId : String) (status : Status) : Db :=
  ⟨.empty, ⟨[oneRow sourceId destinationId status], nodup_singleton _⟩, 2,
    forall_mem_singleton.mpr Nat.one_lt_two⟩

theorem exists_settling {α : Type} {source destination : String} (add : Bool) (finish : Nat → Db → Int → α)
    (hid : msg.sourceId ≠ "") (hmatch : isMatch source destination status (oneRow sourceId destinationId status)) :
    ∃ d : Db, d.transactions = (oneRowDb sourceId destinationId status).transactions ∧
      settling readingEnv (oneRowDb sourceId destinationId status) msg source destination status add finish =
        some (finish 1 d 0) := by
  have hfind : (oneRowDb sourceId destinationId status).findNewest readingEnv source destination status = some 1 := by
    simp [Db.findNewest, oneRowDb, hmatch]
    rfl
  obtain ⟨d, hadjust⟩ : ∃ d, (oneRowDb sourceId destinationId status).adjustInventory msg.sourceId
      (extractQuantities msg.items.items) add readingEnv.now = some d :=
    ⟨_, if_pos (by rintro r ⟨⟩)⟩
  exact ⟨d, (adjustInventory_transactions hadjust).1, settling_eq_some.mpr ⟨hid, 1, d, 0, hfind, hadjust, rfl, rfl⟩⟩

theorem not_respects_settled (f : TransactionRow → TransactionRow) (hf : ∀ t, (f t).transactionId = t.transactionId)
    (hd : d.transactions = (oneRowDb sourceId destinationId status).transactions)
    (hdb : db.transactions = (d.updateTransaction 1 f hf).transactions)
    (hown : ¬ Concerns username (f (oneRow sourceId destinationId status)))
    (hstatus : (f (oneRow sourceId destinationId status)).status ≠ status) :
    ¬ DbRespects username clientType (oneRowDb sourceId destinationId status) db := by
  intro h
  have hmem : f (oneRow sourceId destinationId status) ∈ db.transactions.rows := by
    rw [hdb]
    refine mem_updateRows.mpr (.inr ⟨oneRow sourceId destinationId status, ?_, rfl, rfl⟩)
    rw [hd]
    exact mem_singleton_self _
  rcases h.changed _ hmem with hsame | hc | ⟨-, -, hnew⟩
  · exact hstatus (congrArg TransactionRow.status (mem_singleton.mp hsame))
  · exact hown hc
  · exact hnew _ (mem_singleton_self _) (hf _).symm

theorem breach_receiptConfirm (hcat : categorizeMessage msg.msgType = .receiptConfirm)
    (hother : msg.sourceId ≠ username) (hid : msg.sourceId ≠ "") :
    ¬ DbRespects username clientType (oneRowDb none msg.sourceId .dispatched)
      (handleOtherMessage firstOnly sessionId msg command (oneRowDb none msg.sourceId .dispatched)).2 := by
  have hmatch : isMatch "" msg.sourceId .dispatched (oneRow none msg.sourceId .dispatched) :=
    ⟨.inl rfl, .inr rfl, rfl⟩
  obtain ⟨d, hd, hsettle⟩ := exists_settling true (fun id d ts => ((0 : Int), d.setCompleted id ts)) hid hmatch
  have hperform := perform_of_commits (a := firstOnly.attempt 0) rfl (commits_handleReceiptConfirmation.trans hsettle)
  refine not_respects_settled (fun t => { t with status := .completed, receptionTimestamp := some 0 }) (fun _ => rfl)
    hd ?_ (fun h => h.elim nofun hother) nofun
  simp only [handleOtherMessage, hcat, hperform]
  exact (firstOnly_pendingGatewayOrders 0 _ msg _).2

theorem not_respects_dispatched {name : String} (hother : name ≠ username)
    (hd : d.transactions = (oneRowDb (some name) name .assigned).transactions)
    (hdb : db.transactions = (d.setDispatched 1 0).transactions) :
    ¬ DbRespects username clientType (oneRowDb (some name) name .assigned) db :=
  not_respects_settled (fun t => { t with status := .dispatched, dispatchTimestamp := some 0 }) (fun _ => rfl) hd hdb
    (fun h => h.elim (fun he => hother (Option.some.inj he)) hother) nofun

theorem isMatch_assigned (name : String) : isMatch name "" .assigned (oneRow (some name) name .assigned) :=
  ⟨.inr rfl, .inl rfl, rfl⟩

theorem breach_dispatch
    (hcat : categorizeMessage msg.msgType = .dispatchConfirm ∨ categorizeMessage msg.msgType = .dispatchNotice)
    (hother : msg.sourceId ≠ username) (hid : msg.sourceId ≠ "") :
    ¬ DbRespects username clientType (oneRowDb (some msg.sourceId) msg.sourceId .assigned)
      (handleOtherMessage firstOnly sessionId msg command (oneRowDb (some msg.sourceId) msg.sourceId .assigned)).2 := by
  rcases hcat with hcat | hcat
  · obtain ⟨d, hd, hsettle⟩ := exists_settling false (fun id d ts => (((0 : Int), some id), d.setDispatched id ts)) hid
      (isMatch_assigned msg.sourceId)
    have hperform := perform_of_commits (a := firstOnly.attempt 0) rfl (commits_handleDispatchConfirmation.trans hsettle)
    apply not_respects_dispatched hother hd
    simp only [handleOtherMessage, hcat, hperform]
  · obtain ⟨d, hd, hsettle⟩ := exists_settling false _ hid (isMatch_assigned msg.sourceId)
    have hperform := perform_of_commits (a := firstOnly.attempt 0) rfl (commits_handleShipmentNotice.trans hsettle)
    apply not_respects_dispatched hother hd
    simp only [handleOtherMessage, hcat, hperform]
    split <;> rfl

end Confirmations

def oneCredential (username password : String) : AuthModule.Credentials := ⟨[⟨username, password, "", false⟩], by simp⟩

variable {store : Store}

theorem breach_authRequest {sent : List Slot} (hother : (loginFields msg).1 ≠ username)
    (hname : (loginFields msg).1 ≠ "")
    (hbefore : store.credentials = oneCredential (loginFields msg).1 (loginFields msg).2) :
    ¬ Respects username clientType store (handleAuthRequest cfg plainOracle msg req store).2 sent := by
  intro h
  have hfind : (oneCredential (loginFields msg).1 (loginFields msg).2).find? (loginFields msg).1 =
      some ⟨(loginFields msg).1, (loginFields msg).2, "", false⟩ :=
    Table.find?_eq_some.mpr ⟨mem_singleton_self _, rfl⟩
  have hsame := h.credentials (loginFields msg).1 hother
  rw [handleAuthRequest_credentials, hbefore] at hsame
  have hactive := AuthModule.find?_authenticate_self hfind hname
  rw [hfind] at hsame
  cases hactive.symm.trans hsame

theorem handleMessage_db {o : Oracle}
    (hother : categorizeMessage (deserializeMessage root).msgType ∉ [.authRequest, .ackMessage, .keepaliveMsg]) :
    (handleMessage cfg o root req store).2.db =
      (handleOtherMessage o req.sessionId (deserializeMessage root) (readCommand root) store.db).2 := by
  simp only [mem_cons, not_mem_nil, or_false, not_or] at hother
  rw [handleMessage]
  split
  · next hcat => exact absurd hcat hother.1
  · next hcat => exact absurd hcat hother.2.1
  · next hcat => exact absurd hcat hother.2.2
  · rfl

theorem inOwnName_of_respects (cfg : Config)
    (h : ∀ o store, store.deadSessions = ∅ → Respects req.username req.clientType store
      (handleMessage cfg o root req store).2 ((handleMessage cfg o root req store).1.getD [])) :
    InOwnName req (deserializeMessage root) := by
  have hdb (db : Db)
      (hother : categorizeMessage (deserializeMessage root).msgType ∉ [.authRequest, .ackMessage, .keepaliveMsg]) :
      DbRespects req.username req.clientType db
        (handleOtherMessage firstOnly req.sessionId (deserializeMessage root) (readCommand root) db).2 := by
    have hr := (h firstOnly ⟨db, .empty, ∅⟩ rfl).database
    rwa [handleMessage_db hother] at hr
  simp only [InOwnName]
  cases hcat : categorizeMessage (deserializeMessage root).msgType with
  | authRequest =>
    by_contra hnot
    rw [not_or] at hnot
    let login := loginFields (deserializeMessage root)
    have hr := h plainOracle ⟨emptyDb, oneCredential login.1 login.2, ∅⟩ rfl
    simp only [handleMessage, hcat] at hr
    exact breach_authRequest hnot.1 hnot.2 rfl hr
  | invUpdate =>
    by_contra hnot
    simp only [not_or] at hnot
    exact breach_invUpdate hnot.1 hnot.2.1 hnot.2.2 hcat (hdb _ (by simp [hcat]))
  | stockReq =>
    by_contra hnot
    simp only [not_or] at hnot
    exact breach_stockReq hnot.1 hnot.2.1 hnot.2.2 hcat (hdb _ (by simp [hcat]))
  | replenishReq =>
    by_contra hnot
    simp only [not_or] at hnot
    exact breach_replenishReq hnot.1 hnot.2.1 hnot.2.2 hcat (hdb _ (by simp [hcat]))
  | receiptConfirm =>
    by_contra hnot
    rw [not_or] at hnot
    exact breach_receiptConfirm hcat hnot.1 hnot.2 (hdb _ (by simp [hcat]))
  | dispatchConfirm | dispatchNotice =>
    by_contra hnot
    rw [not_or] at hnot
    exact breach_dispatch (by simp [hcat]) hnot.1 hnot.2 (hdb _ (by simp [hcat]))
  | cliCommand =>
    have hr := (h plainOracle ⟨emptyDb, .empty, ∅⟩ rfl).admin
    simp only [handleMessage, hcat, handleOtherMessage] at hr
    exact hr _ mem_cons_self rfl
  | gatewayCommand =>
    have hr := (h plainOracle ⟨emptyDb, .empty, ∅⟩ rfl).gateway
    simp only [handleMessage, hcat, handleOtherMessage] at hr
    exact hr _ mem_cons_self _ rfl
  | ackMessage | keepaliveMsg | emergencyAlert | other => trivial

theorem respects_disconnect {o : Oracle} (hc : req.isDisconnect = true) :
    Respects req.username req.clientType store (processRequest cfg parse o req store).2
      ((processRequest cfg parse o req store).1.getD []) := by
  rw [processRequest, if_pos hc]
  refine ⟨fun v hv => ?_, .of_same rfl rfl, forall_mem_nil _, forall_mem_nil _⟩
  split
  · rfl
  · exact AuthModule.find?_setClientActive false hv

/-- A request of an authenticated session stays within what its user may do, in every state,
exactly when it is not handled or acts in the user's own name. -/
theorem authority_iff (cfg : Config) (parse : String → Option Json) (req : RequestSlot)
    (hauth : req.isAuthenticated = true) :
    (∀ o store, Respects req.username req.clientType store (processRequest cfg parse o req store).2
      ((processRequest cfg parse o req store).1.getD [])) ↔ (req.isDisconnect = true ∨ req.isBlacklisted = true ∨
      ∀ root, parse req.rawJson = some root → InOwnName req (deserializeMessage root)) := by
  constructor
  · intro h
    by_contra hnot
    simp only [not_or, Bool.not_eq_true] at hnot
    obtain ⟨hc, hb, hroot⟩ := hnot
    refine hroot fun root hp => inOwnName_of_respects cfg fun o store hdead => ?_
    have haccepted : Accepted parse req store.deadSessions root :=
      ⟨hc, by simp [hdead], hb, hp, .inr hauth⟩
    rw [← processRequest_of_accepted haccepted]
    exact h o store
  · intro h o store
    rcases processRequest_cases cfg parse o req store with hc | ⟨-, -, he⟩ | ⟨root, hroot, he⟩
    · exact respects_disconnect hc
    · rw [he]
      exact ⟨fun _ _ => rfl, .of_same rfl rfl, forall_mem_nil _, forall_mem_nil _⟩
    · rw [he]
      apply respects_handleMessage
      rcases h with hc | hb | h
      · exact absurd (hroot.connected.symm.trans hc) Bool.false_ne_true
      · exact absurd (hroot.welcome.symm.trans hb) Bool.false_ne_true
      · exact h root hroot.parsed

def hubRequest : RequestSlot := ⟨"tcp_session_1", .tcp, "", 0, true, false, false, "HUB", "h1"⟩

def inventoryReport (sourceId : String) : Json :=
  .object [("msg_type", .string "WAREHOUSE_TO_SERVER__INVENTORY_UPDATE"), ("source_role", .string "WAREHOUSE"),
    ("source_id", .string sourceId), ("timestamp", .string "2026-01-01")]

theorem own_report_respects : Respects "h1" "HUB" emptyStore
    (processRequest ⟨5, 3, 30⟩ (fun _ => some (inventoryReport "h1")) plainOracle hubRequest emptyStore).2
    ((processRequest ⟨5, 3, 30⟩ (fun _ => some (inventoryReport "h1")) plainOracle hubRequest emptyStore).1.getD []) := by
  refine (authority_iff _ _ hubRequest rfl).mpr (.inr (.inr fun root h => ?_)) plainOracle emptyStore
  cases h
  exact .inl rfl

/-- The hub overwrites the stock of a warehouse. -/
theorem forged_report_breaches : ¬ Respects "h1" "HUB" emptyStore
    (processRequest ⟨5, 3, 30⟩ (fun _ => some (inventoryReport "w1")) plainOracle hubRequest emptyStore).2
    ((processRequest ⟨5, 3, 30⟩ (fun _ => some (inventoryReport "w1")) plainOracle hubRequest emptyStore).1.getD []) := by
  intro h
  have hrow := congrArg Option.isSome (h.database.inventory "w1" (by decide))
  revert hrow
  decide

end Logistics.Authority
