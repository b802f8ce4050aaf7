import Logistics.PendingSpec
import Logistics.RowVersions
import Logistics.WorkerSurvival

namespace Logistics.Authority

open KeyedTable JsonManager Database InventoryManager InventorySpec PendingSpec ApiGateway MessageHandler
open RowVersions Worker Ipc

def Concerns (username : String) (t : TransactionRow) : Prop := t.sourceId = some username ∨ t.destinationId = username

/-- What a request of the user may change in the database: the own inventory row
and transactions of the user. The orders that a gateway places are its own,
although its name is not in the row. -/
structure DbRespects (username clientType : String) (before after : Db) : Prop where
  inventory : ∀ v, v ≠ username → after.inventory.find? v = before.inventory.find? v
  kept : ∀ t ∈ before.transactions.rows, ∃ s ∈ after.transactions.rows, s.transactionId = t.transactionId
  changed : ∀ t ∈ after.transactions.rows, t ∈ before.transactions.rows ∨ Concerns username t ∨
    clientType = gateway ∧ t.transactionType = .orderDispatch ∧
      ∀ s ∈ before.transactions.rows, s.transactionId ≠ t.transactionId

structure Respects (username clientType : String) (before after : Store) (sent : List Slot) : Prop where
  credentials : ∀ v, v ≠ username → after.credentials.find? v = before.credentials.find? v
  database : DbRespects username clientType before.db after.db
  admin : ∀ slot ∈ sent, slot.payload = .adminReply → clientType = cli
  gateway : ∀ slot ∈ sent, ∀ reply, slot.payload = .gatewayReply reply → clientType = gateway

variable {username clientType : String} {db d db' : Db} {a : Attempt} {msg : Message}

theorem DbRespects.of_same (hi : db'.inventory = db.inventory) (ht : db'.transactions = db.transactions) :
    DbRespects username clientType db db' := by
  refine ⟨fun v _ => by rw [hi], fun t h => ⟨t, ht ▸ h, rfl⟩, fun t h => .inl ?_⟩
  rwa [ht] at h

theorem DbRespects.trans (h : DbRespects username clientType db d) (h' : DbRespects username clientType d db') :
    DbRespects username clientType db db' := by
  refine ⟨fun v hv => (h'.inventory v hv).trans (h.inventory v hv), fun t ht => ?_, fun t ht => ?_⟩
  · obtain ⟨s, hs, he⟩ := h.kept t ht
    obtain ⟨s', hs', he'⟩ := h'.kept s hs
    exact ⟨s', hs', he'.trans he⟩
  · rcases h'.changed t ht with hmid | hown | ⟨hg, htype, hnew⟩
    · exact h.changed t hmid
    · exact .inr (.inl hown)
    · refine .inr (.inr ⟨hg, htype, fun s hs he => ?_⟩)
      obtain ⟨s', hs', he'⟩ := h.kept s hs
      exact hnew s' hs' (he'.trans he)

theorem respects_perform {α : Type} {work : Work α}
    (h : ∀ r d, commits a.env work db = some (r, d) → DbRespects username clientType db d) :
    DbRespects username clientType db (perform a work db).2 :=
  perform_induct a work db (fun _ => .of_same rfl rfl) h

theorem respects_updateTransaction {id : Nat} {f : TransactionRow → TransactionRow}
    {hf : ∀ t, (f t).transactionId = t.transactionId}
    (hown : ∀ t ∈ db.transactions.rows, t.transactionId = id → Concerns username (f t)) :
    DbRespects username clientType db (db.updateTransaction id f hf) := by
  refine ⟨fun _ _ => rfl, fun t ht => ?_, fun t ht => ?_⟩
  · by_cases hid : t.transactionId = id
    · exact ⟨f t, mem_updateRows.mpr (.inr ⟨t, ht, hid, rfl⟩), hf t⟩
    · exact ⟨t, mem_updateRows.mpr (.inl ⟨ht, hid⟩), rfl⟩
  · rcases mem_updateRows.mp ht with ⟨ht, -⟩ | ⟨s, hs, hid, rfl⟩
    · exact .inl ht
    · exact .inr (.inl (hown s hs hid))

theorem respects_insertRow {row : Nat → TransactionRow} {hrow : ∀ id, (row id).transactionId = id}
    (h : Concerns username (row db.nextId) ∨ clientType = gateway ∧ (row db.nextId).transactionType = .orderDispatch) :
    DbRespects username clientType db (db.insertRow row hrow) := by
  refine ⟨fun _ _ => rfl, fun t ht => ⟨t, List.mem_append_left _ ht, rfl⟩, fun t ht => ?_⟩
  rcases List.mem_append.mp ht with ht | ht
  · exact .inl ht
  · rw [List.mem_singleton.mp ht]
    refine .inr (h.imp id fun ⟨hg, htype⟩ => ⟨hg, htype, fun s hs he => ?_⟩)
    have hlt := db.fresh s hs
    rw [he, hrow] at hlt
    exact Nat.lt_irrefl _ hlt

theorem respects_adjustInventory {q : Quantities} {add : Bool} {now : Int}
    (h : db.adjustInventory username q add now = some d) : DbRespects username clientType db d := by
  rw [Db.adjustInventory] at h
  split at h
  · cases h
    refine ⟨fun v hv => ?_, fun t ht => ⟨t, ht, rfl⟩, fun t ht => .inl ht⟩
    rw [Table.find?_update, if_neg hv]
  · cases h

theorem respects_upsertInventory {row : InventoryRow} (h : row.clientId = username) :
    DbRespects username clientType db (db.upsertInventory row) := by
  refine ⟨fun v hv => ?_, fun t ht => ⟨t, ht, rfl⟩, fun t ht => .inl ht⟩
  rw [Db.upsertInventory, find?_put, if_neg (h ▸ hv)]

theorem respects_ensureInventory (now : Int) (role : String) :
    DbRespects username clientType db (ensureInventory db now username role).2 := by
  rw [ensureInventory]
  split
  · exact .of_same rfl rfl
  · exact respects_upsertInventory rfl

theorem respects_assignEach (orders : List TransactionRow) :
    DbRespects username clientType db (assignEach db username orders) := by
  induction orders generalizing db with
  | nil => exact .of_same rfl rfl
  | cons o rest ih => exact (respects_updateTransaction fun _ _ _ => .inl rfl).trans ih

section Handlers

variable {clientId : String} {attempt : Nat → Attempt}

theorem respects_processPendingOrders (h : clientId = username ∨ clientId = "") :
    DbRespects username clientType db (perform a (processPendingOrders clientId) db).2 := by
  refine respects_perform fun r d hc => ?_
  obtain ⟨hne, hfit⟩ := commits_processPendingOrders_eq_some hc
  obtain rfl := h.resolve_right hne
  have hensure : DbRespects clientId clientType db (ensureInventory db a.env.now clientId warehouse).2 :=
    respects_ensureInventory _ _
  split at hfit
  · rw [hfit.2]
    exact hensure
  · rw [hfit.2]
    exact hensure.trans (respects_updateTransaction fun _ _ _ => .inl rfl)

theorem respects_processPendingGatewayOrders (h : clientId = username ∨ clientId = "") :
    DbRespects username clientType db (perform a (processPendingGatewayOrders clientId) db).2 := by
  refine respects_perform fun r d hc => ?_
  obtain ⟨hne, rfl⟩ := commits_processPendingGatewayOrders_eq_some hc
  obtain rfl := h.resolve_right hne
  exact (respects_ensureInventory _ _).trans (respects_assignEach _)

section Requests

variable (h : msg.sourceId = username ∨ msg.sourceId = "" ∨ msg.sourceRole = "")
include h

theorem respects_storeInventory :
    DbRespects username clientType db (perform a (storeInventory msg) db).2 := by
  refine respects_perform fun r d hc => ?_
  rw [commits_storeInventory] at hc
  split at hc
  · cases hc
    exact .of_same rfl rfl
  · next hne =>
    obtain ⟨ts, -, he⟩ := Option.map_eq_some_iff.mp hc
    cases he
    exact respects_upsertInventory (h.resolve_right hne)

theorem respects_pendingGatewayOrders {stamp : Nat → String} :
    DbRespects username clientType db (pendingGatewayOrders a stamp msg db).2 := by
  rw [pendingGatewayOrders]
  split
  · next hrole =>
    refine respects_processPendingGatewayOrders (h.imp id fun h => h.resolve_right fun he => ?_)
    rw [he] at hrole
    revert hrole
    decide
  · exact .of_same rfl rfl

theorem respects_handleStockRequest :
    DbRespects username clientType db (perform a (handleStockRequest msg) db).2 := by
  refine respects_perform fun r d hc => ?_
  obtain ⟨hid, hrole, d₁, ts, found, hadjust, -, -, -, rfl⟩ := commits_handleStockRequest_eq_some hc
  obtain rfl := (h.resolve_right fun h => h.elim hid hrole)
  exact (respects_adjustInventory hadjust).trans (respects_insertRow (.inl (.inr rfl)))

theorem respects_handleReplenishRequest :
    DbRespects username clientType db (perform a (handleReplenishRequest msg) db).2 := by
  refine respects_perform fun r d hc => ?_
  rw [commits_handleReplenishRequest] at hc
  split at hc
  · cases hc
  · next hne =>
    obtain ⟨ts, -, he⟩ := Option.bind_eq_some_iff.mp hc
    cases he
    obtain rfl := h.resolve_right hne
    exact respects_insertRow (.inl (.inr rfl))

end Requests

section Confirmations

variable (h : msg.sourceId = username ∨ msg.sourceId = "")
include h

theorem respects_settling {α : Type} {env : Env} {sourceId destinationId : String} {status : Status} {add : Bool}
    {result : Nat → Db → α} {r : α} (f : Int → TransactionRow → TransactionRow)
    (hf : ∀ ts t, (f ts t).transactionId = t.transactionId)
    (hown : msg.sourceId ≠ "" → ∀ ts t, isMatch sourceId destinationId status t → Concerns msg.sourceId (f ts t))
    (hc : settling env db msg sourceId destinationId status add (fun id d ts =>
      (result id d, d.updateTransaction id (f ts) (hf ts))) = some (r, db')) : DbRespects username clientType db db' := by
  obtain ⟨hne, id, d, ts, hfind, hadjust, -, he⟩ := settling_eq_some.mp hc
  cases he
  obtain rfl := h.resolve_right hne
  obtain ⟨t, ht, rfl, hmatch, -⟩ := findNewest_eq_some hfind
  refine (respects_adjustInventory hadjust).trans (respects_updateTransaction fun s hs hid => ?_)
  rw [(adjustInventory_transactions hadjust).1] at hs
  rw [db.transactions.unique hs ht hid]
  exact hown hne ts t hmatch

theorem respects_handleReceiptConfirmation :
    DbRespects username clientType db (perform a (handleReceiptConfirmation msg) db).2 := by
  refine respects_perform fun r d hc => ?_
  rw [commits_handleReceiptConfirmation] at hc
  refine respects_settling h (fun ts t => { t with status := .completed, receptionTimestamp := some ts })
    (fun _ _ => rfl) (fun hne ts t hm => ?_) hc
  exact .inr (hm.2.1.resolve_left hne)

theorem respects_handleDispatchConfirmation :
    DbRespects username clientType db (perform a (handleDispatchConfirmation msg) db).2 := by
  refine respects_perform fun r d hc => ?_
  rw [commits_handleDispatchConfirmation] at hc
  refine respects_settling h (fun ts t => { t with status := .dispatched, dispatchTimestamp := some ts })
    (fun _ _ => rfl) (fun hne ts t hm => ?_) hc
  exact .inl (hm.1.resolve_left hne)

theorem respects_handleShipmentNotice :
    DbRespects username clientType db (perform a (handleShipmentNotice msg) db).2 := by
  refine respects_perform fun r d hc => ?_
  rw [commits_handleShipmentNotice] at hc
  refine respects_settling h (fun ts t => { t with status := .dispatched, dispatchTimestamp := some ts })
    (fun _ _ => rfl) (fun hne ts t hm => ?_) hc
  exact .inl (hm.1.resolve_left hne)

end Confirmations

variable {connected : Bool} {stamp : String}

theorem respects_cmdCreateShipment {items : Option (List (Option Int × Option Int))} (h : clientType = gateway) :
    DbRespects username clientType db (cmdCreateShipment attempt connected stamp items db).2.2 := by
  have hfound (q : Quantities) : DbRespects username clientType db (perform (attempt 0) (findHub q) db).2 := by
    refine respects_perform fun r d hc => ?_
    cases hc
    exact .of_same rfl rfl
  have hcreated (d : Db) (sourceId : String) (status : Status) (q : Quantities) :
      DbRespects username clientType d (perform (attempt 1) (insertOrder sourceId status q) d).2 := by
    refine respects_perform fun r d' hc => ?_
    cases hc
    change DbRespects username clientType d (d.insertOrderDispatch sourceId status q (attempt 1).env.now)
    refine respects_insertRow ?_
    exact .inr ⟨h, rfl⟩
  simp only [cmdCreateShipment]
  split
  · exact .of_same rfl rfl
  · split
    · exact .of_same rfl rfl
    · exact .of_same rfl rfl
    · split <;> exact (hfound _).trans (hcreated _ _ _ _)

end Handlers

/-- The message acts in the name of the user of its session, or on nothing, and
is a command only if the user's type allows it. -/
def InOwnName (req : RequestSlot) (msg : Message) : Prop :=
  match categorizeMessage msg.msgType with
  | .authRequest => (loginFields msg).1 = req.username ∨ (loginFields msg).1 = ""
  | .invUpdate | .stockReq | .replenishReq => msg.sourceId = req.username ∨ msg.sourceId = "" ∨ msg.sourceRole = ""
  | .receiptConfirm | .dispatchConfirm | .dispatchNotice => msg.sourceId = req.username ∨ msg.sourceId = ""
  | .cliCommand => req.clientType = cli
  | .gatewayCommand => req.clientType = gateway
  | .ackMessage | .keepaliveMsg | .emergencyAlert | .other => True

theorem respects_of_handles {o : Oracle} {req : RequestSlot} {sessionId : String} {sent : List Response}
    (hhandles : Handles o sessionId msg (categorizeMessage msg.msgType) db db' sent) (h : InOwnName req msg) :
    DbRespects req.username req.clientType db db' := by
  rw [InOwnName] at h
  induction hhandles with
  | none => exact .of_same rfl rfl
  | aside _ _ ih | reply _ _ _ ih => exact ih
  | after _ _ _ ih ih' => exact ih.trans ih'
  | store hc => exact respects_storeInventory (by rwa [hc] at h)
  | pendingOrders hc hrole =>
    rw [hc] at h
    refine respects_processPendingOrders (h.imp id fun h => h.resolve_right fun he => ?_)
    rw [he] at hrole
    revert hrole
    decide
  | gatewayOrders hc =>
    rcases hc with hc | hc
    · rw [hc] at h
      exact respects_pendingGatewayOrders h
    · rw [hc] at h
      exact respects_pendingGatewayOrders (h.imp id .inl)
  | stockRequest hc => exact respects_handleStockRequest (by rwa [hc] at h)
  | receipt hc => exact respects_handleReceiptConfirmation (by rwa [hc] at h)
  | dispatch hc => exact respects_handleDispatchConfirmation (by rwa [hc] at h)
  | notice hc => exact respects_handleShipmentNotice (by rwa [hc] at h)
  | replenish hc => exact respects_handleReplenishRequest (by rwa [hc] at h)
  | create hc => exact respects_cmdCreateShipment (by rwa [hc] at h)
  | status =>
    refine respects_perform fun r d hc => ?_
    cases hc
    exact .of_same rfl rfl

open Deserialize

variable {cfg : Config} {o : Oracle} {req : RequestSlot} {store : Store}

theorem respects_clientInventoryMessage {stamp clientId role : String} (h : clientId = username ∨ clientId = "") :
    DbRespects username clientType db (clientInventoryMessage a stamp clientId role db).2 := by
  change DbRespects username clientType db (perform a (getClientInventoryMessage clientId role) db).2
  refine respects_perform fun r d hc => ?_
  rw [getClientInventoryMessage, commits_getClientInventory] at hc
  split at hc
  · cases hc
  · next hne =>
    obtain rfl := h.resolve_right fun he => hne (.inl he)
    cases hc
    exact respects_ensureInventory _ _

theorem find?_authenticate_of_own (fault : Nat → Option Nat) {login v : String} (password : String)
    (c : AuthModule.Credentials) (h : login = username ∨ login = "") (hv : v ≠ username) :
    (AuthModule.authenticate fault login password c).2.find? v = c.find? v := by
  rcases AuthModule.authenticate_eq fault login password c with he | ⟨r, -, -, he⟩
  · rw [he]
  · rw [he]
    rcases AuthModule.setClientActive_cases (fault 1) login true c with hset | ⟨hne, hset⟩
    · rw [hset]
    · rw [hset, Table.find?_update, if_neg ((h.resolve_right hne) ▸ hv)]

def Plain (frame : Frame) : Prop := frame ≠ .adminReply ∧ ∀ reply, frame ≠ .gatewayReply reply

theorem plain_handleAuthRequest : ∀ slot ∈ (handleAuthRequest cfg o msg req store).1, Plain slot.payload := by
  apply forall_handleAuthRequest
  · exact fun _ _ => ⟨nofun, nofun⟩
  · exact fun _ => ⟨nofun, nofun⟩
  · exact fun _ => ⟨nofun, nofun⟩
  · exact ⟨nofun, nofun⟩

theorem handleAuthRequest_credentials : (handleAuthRequest cfg o msg req store).2.credentials =
    (AuthModule.authenticate (fun n => (o.attempt n).fault) (loginFields msg).1 (loginFields msg).2
      store.credentials).2 := by
  simp only [handleAuthRequest]
  split
  · rfl
  · split <;> rfl

theorem respects_handleAuthRequest (h : (loginFields msg).1 = req.username ∨ (loginFields msg).1 = "") :
    Respects req.username req.clientType store (handleAuthRequest cfg o msg req store).2
      (handleAuthRequest cfg o msg req store).1 := by
  refine ⟨fun v hv => ?_, ?_, fun slot hslot he => ?_, fun slot hslot reply he => ?_⟩
  · rw [handleAuthRequest_credentials]
    exact find?_authenticate_of_own _ _ _ h hv
  · simp only [handleAuthRequest]
    split
    · exact .of_same rfl rfl
    · split
      · next hok =>
        simp only
        split
        · refine respects_clientInventoryMessage ?_
          rcases AuthModule.authenticate_eq (fun n => (o.attempt n).fault) (loginFields msg).1 (loginFields msg).2
            store.credentials with he | ⟨r, -, -, he⟩
          · rw [he] at hok
            cases hok
          · rw [he]
            exact h
        · exact .of_same rfl rfl
      · exact .of_same rfl rfl
  · exact absurd he (plain_handleAuthRequest slot hslot).1
  · exact absurd he ((plain_handleAuthRequest slot hslot).2 reply)

theorem replies_of_handles (cfg : Config) {sessionId : String} {c : MessageCategory} {sent : List Response}
    (h : Handles o sessionId msg c db db' sent) : ∀ r ∈ sent, ((slotOf cfg r).payload = .adminReply → c = .cliCommand) ∧
      ∀ reply, (slotOf cfg r).payload = .gatewayReply reply → c = .gatewayCommand := by
  refine h.forall_sent ?_ ?_ ?_ ?_ ?_ (fun hcat => ⟨fun _ => hcat, nofun⟩) fun hcat _ => ⟨nofun, fun _ _ => hcat⟩
  all_goals
    intros
    exact ⟨nofun, nofun⟩

theorem respects_handleMessage {root : Json} (h : InOwnName req (deserializeMessage root)) :
    Respects req.username req.clientType store (handleMessage cfg o root req store).2
      ((handleMessage cfg o root req store).1.getD []) := by
  by_cases hcat : categorizeMessage (deserializeMessage root).msgType = .authRequest
  · rw [handleMessage, hcat]
    simp only [InOwnName, hcat] at h
    exact respects_handleAuthRequest h
  have hreplies : ∀ slot ∈ (handleMessage cfg o root req store).1.getD [],
      (slot.payload = .adminReply → req.clientType = cli) ∧
        ∀ reply, slot.payload = .gatewayReply reply → req.clientType = gateway := by
    refine forall_handleMessage (fun he => absurd he hcat) (fun _ => ⟨by rintro ⟨⟩, by rintro _ ⟨⟩⟩)
      ⟨by rintro ⟨⟩, by rintro _ ⟨⟩⟩ fun _ r hr => ?_
    obtain ⟨hadmin, hgateway⟩ := replies_of_handles cfg (handles_handleOtherMessage ..) _ hr
    refine ⟨fun he => ?_, fun reply he => ?_⟩
    · simpa only [InOwnName, hadmin he] using h
    · simpa only [InOwnName, hgateway reply he] using h
  refine ⟨fun v _ => ?_, ?_, fun slot hs => (hreplies slot hs).1, fun slot hs => (hreplies slot hs).2⟩
  · rw [handleMessage]
    split <;> first | rfl | next he => exact absurd he hcat
  · rw [handleMessage]
    split
    · next he => exact absurd he hcat
    · exact .of_same rfl rfl
    · exact .of_same rfl rfl
    · exact respects_of_handles (handles_handleOtherMessage ..) h

end Logistics.Authority
