import Logistics.AuthorityTheorem
import Logistics.SessionIndex

namespace Logistics.ClientIdentity

open JsonManager Database InventoryManager InventorySpec ApiGateway MessageHandler List Option
open RowVersions Worker Ipc Authority SessionManager Scenario
open AuthModule hiding perform

variable {u : String} {db : Db} {msg : Message}

def Reports (msgType : MsgType) : Prop :=
  categorizeMessage msgType ∈ [.invUpdate, .receiptConfirm, .dispatchConfirm, .dispatchNotice]

def SentBy (u : String) (msgType : MsgType) (msg : Message) : Prop :=
  ∃ targetId items itemCount orderTimestamp stamp created,
    createItemsMessage msgType u targetId items itemCount orderTimestamp stamp = some created ∧ msg = created.delivered

/-- The username is the key of the row that reports and confirmations change, and the
name under which orders for that row find the session of the user. -/
structure OneKey (u : String) : Prop where
  changes : ∀ msgType msg, Reports msgType → SentBy u msgType msg → ∀ o sessionId command db v, v ≠ u →
    (handleOtherMessage o sessionId msg command db).2.inventory.find? v = db.inventory.find? v
  stores : ∀ msgType msg a db, categorizeMessage msgType = .invUpdate → SentBy u msgType msg → u ≠ "" →
    (perform a (storeInventory msg) db).1 = true →
      ∃ row, (perform a (storeInventory msg) db).2.inventory.find? u = some row ∧
        row.stock = extractQuantities msg.items.items
  requested : ∀ a request db stamp response,
    (perform a (handleStockRequest request) db).1.assignedWarehouseId = u →
    dispatchOrder .serverToWarehouseOrderToDispatchStockToHub stamp u
      (perform a (handleStockRequest request) db).1 = some response →
      ∃ order id, response = .sendToUsername u order id
  placed : ∀ attempt stamp items db side,
    (perform (attempt 0) (findHub (orderQuantities items)) db).1 = some u →
    (cmdCreateShipment attempt true stamp (some items) db).2.1 = some side →
      makeSendToUsername side.targetUsername side.message (some side.transactionId) =
        .sendToUsername u side.message (some side.transactionId)
  session : ∀ m s info clientType, SessionManager.Sound m → m.sessions.find? s = some info →
    info.isBlacklisted = false → u ≠ "" →
      findSessionByUsername (markAuthenticated m s clientType (Worker.makeMarkAuthenticated s clientType u).username) u =
        some s

variable {msgType : MsgType}

theorem sourceId_of_sentBy (h : SentBy u msgType msg) : msg.sourceId = safeStrcpy idSize u ∧ msg.msgType = msgType := by
  obtain ⟨targetId, items, itemCount, orderTimestamp, stamp, created, hcreated, rfl⟩ := h
  obtain ⟨roles, -, rfl⟩ := map_eq_some_iff.mp hcreated
  exact ⟨delivered_sourceId _, rfl⟩

theorem sourceRole_of_sentBy (h : SentBy u msgType msg) : msg.sourceRole ≠ "" := by
  obtain ⟨targetId, items, itemCount, orderTimestamp, stamp, created, hcreated, rfl⟩ := h
  obtain ⟨roles, hroles, rfl⟩ := map_eq_some_iff.mp hcreated
  change safeStrcpy roleSize roles.1 ≠ ""
  unfold prefixRoles at hroles
  split_ifs at hroles <;> cases hroles <;> decide

theorem length_safeStrcpy (size : Nat) (s : String) : (safeStrcpy size s).length = min (size - 1) s.length := by
  rw [safeStrcpy, String.length_ofList, length_take, String.length_toList]

theorem changes_of_short (hlen : u.length < idSize) (hreports : Reports msgType)
    (hsent : SentBy u msgType msg) (o : Oracle) (sessionId : String) (command : Command) (db : Db) {v : String}
    (hv : v ≠ u) : (handleOtherMessage o sessionId msg command db).2.inventory.find? v = db.inventory.find? v := by
  obtain ⟨hsource, htype⟩ := sourceId_of_sentBy hsent
  rw [safeStrcpy_of_length_lt hlen] at hsource
  let req : RequestSlot := ⟨sessionId, .tcp, "", 0, true, false, false, "", u⟩
  have hown : InOwnName req msg := by
    rw [InOwnName, htype]
    simp only [Reports, mem_cons, not_mem_nil, or_false] at hreports
    rcases hreports with h | h | h | h <;> rw [h] <;> exact .inl hsource
  have hrespects : DbRespects u "" db (handleOtherMessage o req.sessionId msg command db).2 :=
    respects_of_handles (handles_handleOtherMessage ..) hown
  exact hrespects.inventory v hv

theorem exits_storeInventory {env : Env} :
    (storeInventory msg).Exits (Database.exec env) (fun r => r = false) (fun _ => True) db := by
  rw [storeInventory, updateClientInventory]
  split
  · exact ⟨trivial, rfl⟩
  · exact ⟨rfl, fun _ _ _ => ⟨trivial, rfl⟩⟩

theorem stores_of_short (hlen : u.length < idSize) (hsent : SentBy u msgType msg) (hu : u ≠ "")
    (a : Attempt) (hok : (perform a (storeInventory msg) db).1 = true) :
    ∃ row, (perform a (storeInventory msg) db).2.inventory.find? u = some row ∧
      row.stock = extractQuantities msg.items.items := by
  obtain ⟨hsource, -⟩ := sourceId_of_sentBy hsent
  rw [safeStrcpy_of_length_lt hlen] at hsource
  have hexits : (storeInventory msg).Exits (Database.exec a.env) (fun r => r = false) (fun _ => True) db :=
    exits_storeInventory
  rcases perform_exits hexits with ⟨hfalse, -⟩ | ⟨-, hc⟩
  · rw [hok] at hfalse
    cases hfalse
  · rw [commits_storeInventory, if_neg (by simp [hsource, hu, sourceRole_of_sentBy hsent])] at hc
    obtain ⟨ts, -, heq⟩ := map_eq_some_iff.mp hc
    rw [← heq, Db.upsertInventory, find?_put, if_pos hsource.symm]
    exact ⟨_, rfl, rfl⟩

theorem short_of_changes (h : ∀ msg, SentBy u .hubToServerInventoryUpdate msg → ∀ o sessionId command db v, v ≠ u →
    (handleOtherMessage o sessionId msg command db).2.inventory.find? v = db.inventory.find? v) :
    u.length < idSize := by
  by_contra hlong
  have hroles : prefixRoles MsgType.hubToServerInventoryUpdate.text = some (hub, server) := by decide
  obtain ⟨created, hcreated, htype, -⟩ := createItemsMessage_eq hroles u server (fun _ => .zero) 6 none ""
  have hsent : SentBy u .hubToServerInventoryUpdate created.delivered :=
    ⟨server, fun _ => .zero, 6, none, "", created, hcreated, rfl⟩
  obtain ⟨hsource, htype'⟩ := sourceId_of_sentBy hsent
  have hlength := length_safeStrcpy idSize u
  have hcut : created.delivered.sourceId ≠ u := by
    intro heq
    rw [← hsource, heq, idSize] at hlength
    rw [idSize] at hlong
    omega
  have hne : created.delivered.sourceId ≠ "" := by
    intro heq
    rw [← hsource, heq, idSize] at hlength
    rw [idSize] at hlong
    have hzero : ("" : String).length = 0 := rfl
    omega
  have hkept := h _ hsent firstOnly "" .unknown emptyDb _ hcut
  have hcat : categorizeMessage created.delivered.msgType = .invUpdate := by
    rw [htype']
    rfl
  rw [inventory_invUpdate hcat hne (sourceRole_of_sentBy hsent), Db.upsertInventory, find?_put, if_pos rfl] at hkept
  cases hkept

variable {stamp : String}

theorem requested_of_short (hlen : u.length < idSize) {r : StockRequestResult} {response : Response}
    (h : dispatchOrder msgType stamp u r = some response) : ∃ order id, response = .sendToUsername u order id := by
  obtain ⟨order, -, rfl⟩ := map_eq_some_iff.mp h
  have hcredentials : u.length < credentialsSize := hlen.trans (by decide)
  exact ⟨order, r.transactionId, by rw [MessageHandler.makeSendToUsername, safeStrcpy_of_length_lt hcredentials]⟩

theorem targetUsername_of_cmdCreateShipment {attempt : Nat → Attempt}
    {items : List (Option Int × Option Int)} {side : SideEffect}
    (hfound : (perform (attempt 0) (findHub (orderQuantities items)) db).1 = some u)
    (hside : (cmdCreateShipment attempt true stamp (some items) db).2.1 = some side) :
    side.targetUsername = safeStrcpy idSize u := by
  cases items with
  | nil => cases hside
  | cons item rest =>
    simp only [cmdCreateShipment, hfound, Bool.true_eq_false, if_false, map_some, bind_some] at hside
    split at hside
    · cases hside
    · dsimp only at hside
      obtain ⟨msg, -, rfl⟩ := map_eq_some_iff.mp hside
      rfl

theorem finds_session {m : Sessions} {s clientType : String} {info : SessionInfo} (hs : Sound m)
    (h : m.sessions.find? s = some info) (hb : info.isBlacklisted = false) (hu : u ≠ "") :
    findSessionByUsername (markAuthenticated m s clientType u) u = some s := by
  refine (hs.mark s clientType u).findSessionByUsername_eq_some.mpr
    ⟨(u, s), _, ?_, rfl, find?_markAuthenticated_self h clientType u, rfl, hb, rfl⟩
  rw [hs.index_markAuthenticated h, if_pos rfl, if_neg hu]

theorem oneKey_iff : OneKey u ↔ u.length < idSize := by
  constructor
  · intro h
    exact short_of_changes fun msg hsent => h.changes _ msg (mem_cons_self) hsent
  · intro hlen
    have hcredentials : u.length < credentialsSize := hlen.trans (by decide)
    exact
      { changes := fun _ _ hreports hsent o sessionId command db _ hv =>
          changes_of_short hlen hreports hsent o sessionId command db hv
        stores := fun _ _ a _ _ hsent hu hok => stores_of_short hlen hsent hu a hok
        requested := fun _ _ _ _ _ _ hresponse => requested_of_short hlen hresponse
        placed := fun _ _ _ _ side hfound hside => by
          rw [MessageHandler.makeSendToUsername, targetUsername_of_cmdCreateShipment hfound hside,
            safeStrcpy_of_length_lt hlen, safeStrcpy_of_length_lt hcredentials]
        session := fun m s info clientType hs hinfo hb hu => by
          change findSessionByUsername (markAuthenticated m s clientType (safeStrcpy credentialsSize u)) u = some s
          rw [safeStrcpy_of_length_lt hcredentials]
          exact finds_session hs hinfo hb hu }

open KeyedTable PendingSpec

def SnapshotOf (u : String) (slots : List Slot) (db : Db) : Prop :=
  ∀ slot ∈ slots, ∀ inv id, slot.payload = .message inv id →
    inv.msgType = .serverToHubInventoryUpdate ∨ inv.msgType = .serverToWarehouseInventoryUpdate →
      ∃ row, db.inventory.find? u = some row ∧ inv.items.items = inventoryItems row.stock

theorem find?_ensureInventory (db : Db) (now : Int) (clientType : String) :
    ∃ row, (ensureInventory db now u clientType).2.inventory.find? u = some row ∧
      row.stock = (ensureInventory db now u clientType).1 := by
  rw [ensureInventory]
  split
  · next row hrow => exact ⟨row, hrow, rfl⟩
  · rw [Db.upsertInventory, find?_put, if_pos rfl]
    exact ⟨_, rfl, rfl⟩

theorem exits_getClientInventoryMessage {env : Env} {clientType : String} :
    (getClientInventoryMessage u clientType).Exits (Database.exec env) (fun r => r = none) (fun _ => True) db := by
  rw [getClientInventoryMessage, getClientInventory]
  split
  · exact rfl
  · refine ⟨rfl, fun found d _ => ?_⟩
    cases found with
    | some stock => exact ⟨trivial, rfl⟩
    | none => exact ⟨rfl, fun _ _ _ => ⟨trivial, rfl⟩⟩

theorem snapshot_clientInventoryMessage {a : Attempt} {stamp clientType : String} {inv : Message}
    (h : (clientInventoryMessage a stamp u clientType db).1 = some inv) :
    ∃ row, (clientInventoryMessage a stamp u clientType db).2.inventory.find? u = some row ∧
      inv.items.items = inventoryItems row.stock := by
  obtain ⟨q, hq, hbind⟩ := bind_eq_some_iff.mp h
  obtain ⟨msgType, -, hcreated⟩ := bind_eq_some_iff.mp hbind
  obtain ⟨roles, -, rfl⟩ := map_eq_some_iff.mp hcreated
  have hexits : (getClientInventoryMessage u clientType).Exits (Database.exec a.env) (fun r => r = none)
    (fun _ => True) db := exits_getClientInventoryMessage
  rcases perform_exits hexits with ⟨hnone, -⟩ | ⟨-, hc⟩
  · cases hnone.symm.trans hq
  · rw [getClientInventoryMessage, commits_getClientInventory] at hc
    split at hc
    · cases hc
    · have hperform := some.inj hc
      obtain ⟨row, hrow, hstock⟩ := find?_ensureInventory (u := u) db a.env.now clientType
      refine ⟨row, ?_, ?_⟩
      · change (perform a (getClientInventoryMessage u clientType) db).2.inventory.find? u = some row
        rw [getClientInventoryMessage, ← hperform]
        exact hrow
      · change firstItems (inventoryItems q) 6 = _
        rw [getClientInventoryMessage, ← hperform] at hq
        rw [firstItems_of_le le_rfl, hstock, some.inj hq]

theorem not_inventory_of_authResponse {targetRole targetId stamp : String} {statusCode : Int} {response : Message}
    (h : createAuthResponseMessage targetRole targetId statusCode stamp = some response) :
    ¬ (response.msgType = .serverToHubInventoryUpdate ∨ response.msgType = .serverToWarehouseInventoryUpdate) := by
  obtain ⟨msgType, htype, rfl⟩ := map_eq_some_iff.mp h
  change ¬ (msgType = _ ∨ msgType = _)
  unfold getAuthResponseType at htype
  split_ifs at htype <;> cases htype <;> decide

theorem snapshot_handleAuthRequest {cfg : Config} {o : Oracle} {req : RequestSlot} {store : Store}
    (hauth : (authenticate (fun n => (o.attempt n).fault) (loginFields msg).1 (loginFields msg).2
      store.credentials).1.statusCode = .success) :
    SnapshotOf (loginFields msg).1 (handleAuthRequest cfg o msg req store).1
      (handleAuthRequest cfg o msg req store).2.db := by
  rcases authenticate_eq (fun n => (o.attempt n).fault) (loginFields msg).1 (loginFields msg).2 store.credentials with
    he | ⟨r, -, -, he⟩
  · rw [he] at hauth
    cases hauth
  · unfold handleAuthRequest
    simp only [he]
    split
    · exact fun slot hslot => absurd hslot not_mem_nil
    · next response hresponse =>
      have hnot := not_inventory_of_authResponse hresponse
      rw [if_pos trivial]
      intro slot hslot inv id hpayload htype
      simp only [mem_append, mem_cons, not_mem_nil, or_false] at hslot
      have hempty : slot.payload ≠ .empty := by
        rw [hpayload]
        rintro ⟨⟩
      have hother : slot.payload ≠ .message response none := by
        intro heq
        cases hpayload.symm.trans heq
        exact hnot htype
      rcases hslot with (((rfl | rfl) | hslot) | hslot) | hslot
      · exact absurd rfl hempty
      · exact absurd rfl hother
      · split at hslot
        · cases hslot
        · cases mem_singleton.mp hslot
          exact absurd rfl hother
      · split at hslot
        · cases hslot
        · next found hfound =>
          have hinv : inv = found := by
            simp only [mem_cons, not_mem_nil, or_false] at hslot
            rcases hslot with rfl | rfl
            · cases hpayload
              rfl
            · cases hpayload
              rfl
          subst hinv
          split at hfound
          · next hclient =>
            rw [if_pos hclient]
            exact snapshot_clientInventoryMessage hfound
          · cases hfound
      · split at hslot
        · cases hslot
        · cases mem_singleton.mp hslot
          exact absurd rfl hempty

/-- Whoever has logged in has the row of the username as snapshot; it is the row of all
that follows exactly when the username fits into the id field of a message. -/
theorem identity_one_key_iff (cfg : Config) (o : Oracle) (msg : Message) (req : RequestSlot) (store : Store)
    (hauth : (authenticate (fun n => (o.attempt n).fault) (loginFields msg).1 (loginFields msg).2
      store.credentials).1.statusCode = .success) :
    SnapshotOf (loginFields msg).1 (handleAuthRequest cfg o msg req store).1
        (handleAuthRequest cfg o msg req store).2.db ∧
      (OneKey (loginFields msg).1 ↔ (loginFields msg).1.length < idSize) :=
  ⟨snapshot_handleAuthRequest hauth, oneKey_iff⟩

def login (username : String) : Message :=
  createMessage .warehouseToServerAuthRequest warehouse username server server (.authRequest username "secret")
    "2026-01-01"

def registered (username : String) : Store :=
  { emptyStore with credentials := Table.empty.put ⟨username, "secret", warehouse, false⟩ }

theorem short_username_one_row :
    SnapshotOf "warehouse_north" (handleAuthRequest ⟨5, 3, 30⟩ plainOracle (login "warehouse_north")
      ⟨"tcp_session_1", .tcp, "", 0, false, false, false, "", ""⟩ (registered "warehouse_north")).1
      (handleAuthRequest ⟨5, 3, 30⟩ plainOracle (login "warehouse_north")
        ⟨"tcp_session_1", .tcp, "", 0, false, false, false, "", ""⟩ (registered "warehouse_north")).2.db ∧
      (OneKey "warehouse_north" ↔ "warehouse_north".length < idSize) :=
  identity_one_key_iff ⟨5, 3, 30⟩ plainOracle (login "warehouse_north")
    ⟨"tcp_session_1", .tcp, "", 0, false, false, false, "", ""⟩ (registered "warehouse_north") (by decide)

def stockReport (username : String) : Option Message :=
  createItemsMessage .warehouseToServerInventoryUpdate username server (oneItem 1 5) 6 none "2026-01-02"

theorem stockReport_isSome : (stockReport "warehouse_north_1").isSome = true := by
  decide

theorem long_username_two_rows : (authenticate (fun _ => none) "warehouse_north_1" "secret"
      (registered "warehouse_north_1").credentials).1.statusCode = .success ∧ ¬ OneKey "warehouse_north_1" := by
  refine ⟨by decide, fun h => ?_⟩
  have hreports : Reports .warehouseToServerInventoryUpdate := mem_cons_self
  have hsent : SentBy "warehouse_north_1" .warehouseToServerInventoryUpdate
      ((stockReport "warehouse_north_1").get stockReport_isSome).delivered :=
    ⟨server, oneItem 1 5, 6, none, "2026-01-02", _, (some_get stockReport_isSome).symm, rfl⟩
  have hkept := h.changes _ _ hreports hsent plainOracle "tcp_session_1" .unknown emptyDb "warehouse_north" (by decide)
  exact absurd (congrArg Option.isSome hkept) (by decide +kernel)

end Logistics.ClientIdentity
