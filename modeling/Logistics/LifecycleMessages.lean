import Logistics.Lifecycle
import Logistics.Scenario

namespace Logistics.Lifecycle

open KeyedTable TransactionProgram JsonManager Database InventoryManager InventorySpec PendingSpec ApiGateway
open MessageHandler Reachability Scenario

variable {env : Env} {msg : Message} {db db' : Db} {a : Attempt}

theorem steady_getClientInventoryMessage (hs : Sound db) (clientId clientType : String) :
    Steady db (perform a (getClientInventoryMessage clientId clientType) db).2 := by
  refine perform_induct a _ db (.undo hs) fun r db' hc => ?_
  rw [getClientInventoryMessage, commits_getClientInventory] at hc
  split at hc
  · cases hc
  · next hne =>
    cases hc
    exact steady_ensureInventory hs (fun h => hne (.inl h)) _ _

theorem steady_pendingGatewayOrders (hs : Sound db) (stamp : Nat → String) :
    Steady db (pendingGatewayOrders a stamp msg db).2 := by
  simp only [pendingGatewayOrders]
  split
  · exact steady_processPendingGatewayOrders hs _
  · exact .of_eq hs rfl

theorem findHub_result (a : Attempt) (q : Quantities) (db : Db) :
    (perform a (findHub q) db).1 = none ∨ (perform a (findHub q) db).1 = db.pickByStock a.env hub q := by
  match h : a.fault with
  | some 0 | some 1 => exact .inl (by simp [perform, findHub, h, Prog.run, exec])
  | none | some (_ + 2) => exact .inr (by simp [perform, findHub, h, Prog.run, exec])

theorem steady_findHub (hs : Sound db) (q : Quantities) : Steady db (perform a (findHub q) db).2 := by
  refine perform_induct a _ db (.undo hs) fun r db' hc => ?_
  cases hc
  exact .of_eq hs rfl

theorem pickByStock_named (hs : Sound db) {clientType clientId : String} {q : Quantities}
    (h : db.pickByStock env clientType q = some clientId) : clientId ≠ "" := by
  obtain ⟨r, hr, rfl⟩ := Option.map_eq_some_iff.mp h
  exact hs.named r (List.mem_of_mem_filter (List.mem_of_getElem? hr))

theorem safeStrcpy_ne_empty {s : String} (h : s ≠ "") : safeStrcpy idSize s ≠ "" := by
  intro he
  have hl := congrArg String.toList he
  rw [safeStrcpy] at hl
  cases hs : s.toList with
  | nil => exact h (String.toList_inj.mp (by rw [hs]; rfl))
  | cons c cs => simp [hs, idSize] at hl

theorem grows_insertOrder (hs : Sound db) {hubId : Option String} (hne : ∀ h ∈ hubId, h ≠ "") (q : Quantities) :
    Grows db (perform a (insertOrder (hubId.getD "") (if hubId.isSome then .assigned else .pending) q) db).2 := by
  refine perform_induct a _ db (fun w => (Steady.undo hs w).toGrows) fun r db' hc => ?_
  cases hc
  simp only [Db.insertOrderDispatch]
  cases hubId with
  | none => exact ⟨hs.insertRow (by simp [SourceLaw]), evolves_insertRow (by simp [Created])⟩
  | some h =>
    have hh : h ≠ "" := hne h rfl
    exact ⟨hs.insertRow (by simp [SourceLaw, hh]), evolves_insertRow (by simp [Created])⟩

theorem grows_cmdCreateShipment (hs : Sound db) (attempt : Nat → Attempt) (connected : Bool) (stamp : String)
    (items : Option (List (Option Int × Option Int))) :
    Grows db (cmdCreateShipment attempt connected stamp items db).2.2 := by
  have hself : Grows db db := (Steady.of_eq hs rfl).toGrows
  simp only [cmdCreateShipment]
  split
  · exact hself
  · split
    · exact hself
    · exact hself
    · next items _ =>
      have hfound := steady_findHub (a := attempt 0) hs (orderQuantities items)
      have hne : ∀ h ∈ (perform (attempt 0) (findHub (orderQuantities items)) db).1.map (safeStrcpy idSize),
          h ≠ "" := by
        intro h hh
        obtain ⟨c, hc, rfl⟩ := Option.map_eq_some_iff.mp hh
        rcases findHub_result (attempt 0) (orderQuantities items) db with hr | hr
        · rw [hr] at hc
          cases hc
        · exact safeStrcpy_ne_empty (pickByStock_named hs (hr.symm.trans hc))
      have hgrown := hfound.trans_grows
        (grows_insertOrder (a := attempt 1) hfound.sound hne (orderQuantities items))
      split <;> exact hgrown

theorem grows_of_handles {o : Oracle} {sessionId : String} {c : MessageCategory} {sent : List Response}
    (h : Handles o sessionId msg c db db' sent) (hs : Sound db) : Grows db db' := by
  suffices hgrows : Grows db db' ∧ (c = .invUpdate ∨ c = .receiptConfirm → Steady db db') from hgrows.1
  have hsteady {P : Prop} {d d' : Db} (h : Steady d d') : Grows d d' ∧ (P → Steady d d') := ⟨h.toGrows, fun _ => h⟩
  induction h with
  | none => exact hsteady (.of_eq hs rfl)
  | aside _ _ ih | reply _ _ _ ih => exact ih hs
  | after hc _ _ ih ih' =>
    have hfirst := (ih hs).2 hc
    exact hsteady (hfirst.trans ((ih' hfirst.sound).2 hc))
  | store => exact hsteady (steady_storeInventory hs)
  | pendingOrders => exact hsteady (steady_processPendingOrders hs _)
  | gatewayOrders => exact hsteady (steady_pendingGatewayOrders hs _)
  | stockRequest hc => exact ⟨grows_handleStockRequest hs, by simp [hc]⟩
  | receipt => exact hsteady (steady_handleReceiptConfirmation hs)
  | dispatch => exact hsteady (steady_handleDispatchConfirmation hs)
  | notice => exact hsteady (steady_handleShipmentNotice hs)
  | replenish hc => exact ⟨grows_handleReplenishRequest hs, by simp [hc]⟩
  | create hc => exact ⟨grows_cmdCreateShipment hs _ _ _ _, by simp [hc]⟩
  | @status db =>
    refine hsteady (perform_induct (o.attempt 0) _ db (.undo hs) fun r db' hc => ?_)
    cases hc
    exact .of_eq hs rfl

inductive Step : Db → Db → Prop
  | message {db : Db} (o : Oracle) (sessionId : String) (msg : Message) (command : Command) :
      Step db (handleOtherMessage o sessionId msg command db).2
  | login {db : Db} (a : Attempt) (clientId clientType : String) :
      Step db (perform a (getClientInventoryMessage clientId clientType) db).2

def Init (db : Db) : Prop := db.inventory.rows = [] ∧ db.transactions.rows = []

theorem grows_step (hs : Sound db) (h : Step db db') : Grows db db' := by
  cases h with
  | message o sessionId msg command => exact grows_of_handles (handles_handleOtherMessage ..) hs
  | login a clientId clientType => exact (steady_getClientInventoryMessage hs clientId clientType).toGrows

theorem sound_reach (h : Reach Init Step db) : Sound db := by
  refine h.invariant (P := Sound) (fun d hd => ?_) fun d e hd hs => (grows_step hd hs).sound
  constructor
  · simp [hd.2]
  · simp [hd.1]

theorem advances_steps (hs : Sound db) (h : Relation.ReflTransGen Step db db') {t : TransactionRow}
    (ht : t ∈ db.transactions.rows) : Sound db' ∧ ∃ t' ∈ db'.transactions.rows, Advances t t' := by
  induction h with
  | refl => exact ⟨hs, t, ht, .refl t⟩
  | tail _ hstep ih =>
    obtain ⟨hsound, u, hu, ha⟩ := ih
    have hg := grows_step hsound hstep
    obtain ⟨v, hv, hb⟩ := hg.evolves.advances u hu
    exact ⟨hg.sound, v, hv, ha.trans hb⟩

structure FollowsLifecycle (db : Db) : Prop where
  source : ∀ t ∈ db.transactions.rows, SourceLaw t
  forward : ∀ db', Relation.ReflTransGen Step db db' →
    ∀ t ∈ db.transactions.rows, ∃ t' ∈ db'.transactions.rows, Advances t t'
  created : ∀ db', Step db db' → ∀ t' ∈ db'.transactions.rows,
    (∃ t ∈ db.transactions.rows, t.transactionId = t'.transactionId) ∨ Created t'

/-- Whatever is handled and whatever fails, transactions are created, and move on, as their
lifecycle says. -/
theorem handleOtherMessage_followsLifecycle (h : Reach Init Step db) : FollowsLifecycle db := by
  have hs := sound_reach h
  refine ⟨hs.source, fun db' hd t ht => (advances_steps hs hd ht).2, fun db' hd => ?_⟩
  exact (grows_step hs hd).evolves.created

theorem dispatched_followsLifecycle : oneAssigned.transactions.rows.map TransactionRow.status = [.assigned] ∧
      (handled shipmentNotice oneAssigned).transactions.rows.map TransactionRow.status = [.dispatched] ∧
      FollowsLifecycle oneAssigned ∧ FollowsLifecycle (handled shipmentNotice oneAssigned) := by
  have hstocked : Reach Init Step stockedDb := .next (.start ⟨rfl, rfl⟩) (.message plainOracle "tcp_1" _ .unknown)
  have hassigned : Reach Init Step oneAssigned := hstocked.next (.message plainOracle "tcp_1" _ .unknown)
  exact ⟨by decide, by decide, handleOtherMessage_followsLifecycle hassigned,
    handleOtherMessage_followsLifecycle (hassigned.next (.message plainOracle "tcp_1" _ .unknown))⟩

end Logistics.Lifecycle

namespace Logistics.SettledRows

open KeyedTable TransactionProgram JsonManager Database InventoryManager InventorySpec PendingSpec ApiGateway
open MessageHandler Lifecycle

variable {msg : Message} {db db' : Db} {a : Attempt}

def KeepsSettled (db db' : Db) : Prop := ∀ t ∈ db.transactions.rows, t.status ≠ .pending → t ∈ db'.transactions.rows

theorem KeepsSettled.of_eq (h : db'.transactions = db.transactions) : KeepsSettled db db' := by
  intro t ht _
  rwa [h]

theorem KeepsSettled.trans {d : Db} (h : KeepsSettled db d) (h' : KeepsSettled d db') : KeepsSettled db db' :=
  fun t ht hst => h' t (h t ht hst) hst

theorem keepsSettled_assignEach {hubId : String} (orders : List TransactionRow)
    (h : ∀ o ∈ orders, ∀ t ∈ db.transactions.rows, t.transactionId = o.transactionId → t.status = .pending) :
    KeepsSettled db (assignEach db hubId orders) := by
  intro t ht hst
  have key (d : Db) (hd : t ∈ d.transactions.rows) : t ∈ (assignEach d hubId orders).transactions.rows := by
    induction orders generalizing d with
    | nil => exact hd
    | cons o rest ih =>
      refine ih (fun o' ho' => h o' (List.mem_cons_of_mem _ ho')) _ (mem_updateRows.mpr (.inl ⟨hd, fun he => ?_⟩))
      exact hst (h o List.mem_cons_self t ht he)
  exact key db ht

theorem keepsSettled_processPendingGatewayOrders (hubId : String) :
    KeepsSettled db (perform a (processPendingGatewayOrders hubId) db).2 := by
  refine perform_induct a _ db (fun _ => .of_eq rfl) fun r db' hc => ?_
  obtain ⟨-, rfl⟩ := commits_processPendingGatewayOrders_eq_some hc
  apply (KeepsSettled.of_eq (ensureInventory_transactions ..)).trans
  apply keepsSettled_assignEach
  intro o ho u hu he
  exact pending_unique (greedy_subset _ _ ho) (ensureInventory_transactions ..) hu he

theorem keepsSettled_pendingGatewayOrders (stamp : Nat → String) :
    KeepsSettled db (pendingGatewayOrders a stamp msg db).2 := by
  simp only [pendingGatewayOrders]
  split
  · exact keepsSettled_processPendingGatewayOrders _
  · exact .of_eq rfl

end Logistics.SettledRows
