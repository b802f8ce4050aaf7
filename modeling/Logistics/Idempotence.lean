import Logistics.LifecycleMessages

namespace Logistics.Idempotence

open KeyedTable JsonManager Database InventoryManager InventorySpec PendingSpec Option

variable {α : Type} {env : Env} {msg : Message} {db db' : Db} {a : Attempt}

def SameTables (db db' : Db) : Prop :=
  db'.inventory.rows = db.inventory.rows ∧ db'.transactions.rows = db.transactions.rows

instance (db db' : Db) : Decidable (SameTables db db') := inferInstanceAs (Decidable (_ ∧ _))

theorem not_same_of_status {t t' : TransactionRow} (ht : t ∈ db.transactions.rows) (ht' : t' ∈ db'.transactions.rows)
    (hid : t'.transactionId = t.transactionId) (hne : t'.status ≠ t.status) : ¬ SameTables db db' := by
  intro h
  rw [h.2] at ht'
  exact hne (by rw [db.transactions.unique ht' ht hid])

theorem perform_same_iff {work : Work α} (hfault : a.fault = none)
    (hchange : ∀ r db', commits a.env work db = some (r, db') → ¬ SameTables db db') :
    SameTables db (perform a work db).2 ↔ commits a.env work db = none := by
  cases hc : commits a.env work db with
  | none =>
    rcases perform_cases a work db with ⟨r, w, h⟩ | h
    · rw [h]
      exact ⟨fun _ => rfl, fun _ => ⟨rfl, rfl⟩⟩
    · rw [hc] at h
      cases h
  | some x =>
    rw [perform_of_commits hfault hc]
    exact ⟨fun h => absurd h (hchange x.1 x.2 hc), fun h => by cases h⟩

/-- The sender is known, some transaction is open for it, and PostgreSQL accepts
the adjustment of its stock and the timestamp. -/
structure Takes (env : Env) (db : Db) (msg : Message) (sourceId destinationId : String) (status : Status)
    (add : Bool) : Prop where
  sender : msg.sourceId ≠ ""
  open_ : ∃ t ∈ db.transactions.rows, isMatch sourceId destinationId status t
  fits : ∀ r ∈ db.inventory.find? msg.sourceId, adjustFits add r.stock (extractQuantities msg.items.items)
  timestamp : env.parseTimestamp msg.timestamp ≠ none

variable {destinationId sourceId : String} {status : Status}

theorem findNewest_ne_none : db.findNewest env sourceId destinationId status ≠ none ↔ ∃ t ∈ db.transactions.rows,
    isMatch sourceId destinationId status t := by
  rw [ne_eq, findNewest_eq_none]
  push Not
  rfl

theorem adjustInventory_ne_none {clientId : String} {q : Quantities} {add : Bool} {now : Int} :
    db.adjustInventory clientId q add now ≠ none ↔ ∀ r ∈ db.inventory.find? clientId, adjustFits add r.stock q := by
  rw [Db.adjustInventory]
  split
  · next h => exact ⟨fun _ => h, fun _ => by simp⟩
  · next h => exact ⟨fun hn => absurd rfl hn, fun hf => absurd hf h⟩

theorem takes_iff {β : Type} {add : Bool}
    {finish : Nat → Db → Int → β} : settling env db msg sourceId destinationId status add finish ≠ none ↔
      Takes env db msg sourceId destinationId status add := by
  constructor
  · intro h
    obtain ⟨x, hx⟩ := ne_none_iff_exists'.mp h
    obtain ⟨hs, id, d, ts, hf, ha, hts, -⟩ := settling_eq_some.mp hx
    exact ⟨hs, findNewest_ne_none.mp (by rw [hf]; simp), adjustInventory_ne_none.mp (by rw [ha]; simp),
      by rw [hts]; simp⟩
  · rintro ⟨hs, ho, hf, hts⟩
    obtain ⟨id, hid⟩ := ne_none_iff_exists'.mp (findNewest_ne_none.mpr ho)
    obtain ⟨d, hd⟩ := ne_none_iff_exists'.mp (adjustInventory_ne_none.mpr hf)
    obtain ⟨ts, hts⟩ := ne_none_iff_exists'.mp hts
    exact ne_none_iff_exists'.mpr ⟨_, settling_eq_some.mpr ⟨hs, id, d, ts, hid, hd, hts, rfl⟩⟩

section Changes

variable {sourceId destinationId : String} {id : Nat} {d : Db}

theorem changes_setDispatched (hf : db.findNewest env sourceId destinationId .assigned = some id)
    (hd : d.transactions = db.transactions) (ts : Int) : ¬ SameTables db (d.setDispatched id ts) := by
  obtain ⟨t, ht, rfl, hm, -⟩ := findNewest_eq_some hf
  refine not_same_of_status ht (mem_updateRows.mpr (.inr ⟨t, by rwa [hd], rfl, rfl⟩)) rfl ?_
  rw [hm.2.2]
  exact fun h => by cases h

theorem assigned_assignEach {hubId : String} (orders : List TransactionRow)
    (h : ∃ t ∈ d.transactions.rows, t.transactionId = id ∧ t.status = .assigned) :
    ∃ t ∈ (assignEach d hubId orders).transactions.rows, t.transactionId = id ∧ t.status = .assigned := by
  induction orders generalizing d with
  | nil => exact h
  | cons o rest ih =>
    obtain ⟨t, ht, hid, hst⟩ := h
    refine ih ?_
    by_cases he : t.transactionId = o.transactionId
    · exact ⟨_, mem_updateRows.mpr (.inr ⟨t, ht, he, rfl⟩), hid, rfl⟩
    · exact ⟨t, mem_updateRows.mpr (.inl ⟨ht, he⟩), hid, hst⟩

theorem assigned_of_mem (hubId : String) {orders : List TransactionRow} {o : TransactionRow} (ho : o ∈ orders)
    (hmem : ∃ t ∈ d.transactions.rows, t.transactionId = o.transactionId) :
    ∃ t ∈ (assignEach d hubId orders).transactions.rows, t.transactionId = o.transactionId ∧ t.status = .assigned := by
  induction orders generalizing d with
  | nil => cases ho
  | cons x rest ih =>
    obtain ⟨t, ht, hid⟩ := hmem
    rcases List.mem_cons.mp ho with rfl | ho
    · exact assigned_assignEach rest ⟨_, mem_updateRows.mpr (.inr ⟨t, ht, hid, rfl⟩), hid, rfl⟩
    · refine ih ho ?_
      by_cases he : t.transactionId = x.transactionId
      · exact ⟨_, mem_updateRows.mpr (.inr ⟨t, ht, he, rfl⟩), hid⟩
      · exact ⟨t, mem_updateRows.mpr (.inl ⟨ht, he⟩), hid⟩

end Changes

theorem greedy_eq_nil (stock : Quantities) (pending : List TransactionRow) : greedy stock pending = [] ↔ ∀ t ∈ pending,
    ¬ (t.transactionType = .orderDispatch ∧ canFulfill t.quantities stock) := by
  induction pending with
  | nil => simp [greedy]
  | cons t rest ih =>
    rw [greedy]
    by_cases h : t.transactionType = .orderDispatch ∧ canFulfill t.quantities stock
    · simp [h]
    · simp only [h, if_false, ih, List.forall_mem_cons, not_false_eq_true, true_and]

structure TakesOrders (env : Env) (db : Db) (hubId : String) : Prop where
  sender : hubId ≠ ""
  pending : pendingBatch env db ≠ []
  fits : ∀ r ∈ db.inventory.find? hubId, ∃ t ∈ pendingBatch env db,
    t.transactionType = .orderDispatch ∧ canFulfill t.quantities r.stock

theorem processPendingGatewayOrders_same_iff (hfault : a.fault = none) (hubId : String) :
    SameTables db (perform a (processPendingGatewayOrders hubId) db).2 ↔ ¬ TakesOrders a.env db hubId := by
  have hspec := @commits_processPendingGatewayOrders a.env db hubId
  by_cases hnone : hubId = "" ∨ pendingBatch a.env db = []
  · rw [if_pos hnone] at hspec
    rw [perform_same_iff hfault fun r db' hc => by rw [hspec] at hc; cases hc]
    refine iff_of_true hspec fun ht => ?_
    rcases hnone with h | h
    · exact ht.sender h
    · exact ht.pending h
  rw [if_neg hnone] at hspec
  rw [perform_of_commits hfault hspec]
  cases hrow : db.inventory.find? hubId with
  | none =>
    refine iff_of_false (fun h => ?_) (not_not.mpr ⟨fun h => hnone (.inl h), fun h => hnone (.inr h), ?_⟩)
    · have hinv := h.1
      rw [assignEach_inventory] at hinv
      simp only [ensureInventory, hrow] at hinv
      rw [upsertInventory_changes hrow] at hinv
      simpa using congrArg List.length hinv
    · simp [hrow]
  | some row =>
    have hens : ensureInventory db a.env.now hubId hub = (row.stock, db) := by simp [ensureInventory, hrow]
    rw [hens]
    by_cases hg : greedy row.stock (pendingBatch a.env db) = []
    · rw [hg]
      refine iff_of_true ⟨rfl, rfl⟩ fun ht => ?_
      obtain ⟨t, ht, hfit⟩ := ht.fits row hrow
      exact (greedy_eq_nil _ _).mp hg t ht hfit
    · obtain ⟨o, ho⟩ := List.exists_mem_of_ne_nil _ hg
      obtain ⟨hmem, hst⟩ := mem_pendingBatch (greedy_subset _ _ ho)
      obtain ⟨t, ht, hid, hta⟩ := assigned_of_mem hubId ho ⟨o, hmem, rfl⟩
      refine iff_of_false (not_same_of_status hmem ht hid (by rw [hta, hst]; exact fun h => by cases h))
        (not_not.mpr ⟨fun h => hnone (.inl h), fun h => hnone (.inr h), fun r hr => ?_⟩)
      rw [hrow] at hr
      cases hr
      by_contra hno
      exact hg ((greedy_eq_nil _ _).mpr fun t ht hfit => hno ⟨t, ht, hfit⟩)

open ApiGateway MessageHandler Reachability Scenario Lifecycle SettledRows

def Confirmation (msg : Message) : Prop :=
  categorizeMessage msg.msgType = .dispatchNotice ∨ categorizeMessage msg.msgType = .dispatchConfirm ∨
    categorizeMessage msg.msgType = .receiptConfirm

theorem settling_same_iff {α : Type} {work : Work α} {result : Nat → Db → α} (hfault : a.fault = none)
    (hspec : commits a.env work db = settling a.env db msg msg.sourceId "" .assigned false fun id d ts =>
      (result id d, d.setDispatched id ts)) :
    SameTables db (perform a work db).2 ↔ ¬ Takes a.env db msg msg.sourceId "" .assigned false := by
  rw [perform_same_iff hfault]
  · rw [← not_iff_not, not_not, hspec]
    exact takes_iff
  · intro r db' hc
    rw [hspec, settling_eq_some] at hc
    obtain ⟨-, id, d, ts, hf, ha, -, he⟩ := hc
    cases he
    exact changes_setDispatched hf (adjustInventory_transactions ha).1 ts

theorem handleShipmentNotice_same_iff (hfault : a.fault = none) :
    SameTables db (perform a (handleShipmentNotice msg) db).2 ↔ ¬ Takes a.env db msg msg.sourceId "" .assigned false :=
  settling_same_iff hfault commits_handleShipmentNotice

theorem handleDispatchConfirmation_same_iff (hfault : a.fault = none) :
    SameTables db (perform a (handleDispatchConfirmation msg) db).2 ↔
      ¬ Takes a.env db msg msg.sourceId "" .assigned false :=
  settling_same_iff hfault commits_handleDispatchConfirmation

theorem completed_of_commits {r : Int} (hc : commits env (handleReceiptConfirmation msg) db = some (r, db')) :
    ∃ t ∈ db.transactions.rows, t.status = .dispatched ∧ ∃ t' ∈ db'.transactions.rows,
      t'.transactionId = t.transactionId ∧ t'.status = .completed := by
  rw [commits_handleReceiptConfirmation, settling_eq_some] at hc
  obtain ⟨-, id, d, ts, hf, ha, -, he⟩ := hc
  cases he
  obtain ⟨t, ht, rfl, hm, -⟩ := findNewest_eq_some hf
  rw [← (adjustInventory_transactions ha).1] at ht
  exact ⟨t, (adjustInventory_transactions ha).1 ▸ ht, hm.2.2, _, mem_updateRows.mpr (.inr ⟨t, ht, rfl, rfl⟩), rfl, rfl⟩

theorem pendingGatewayOrders_same_iff (hfault : a.fault = none) (stamp : Nat → String) :
    SameTables db (pendingGatewayOrders a stamp msg db).2 ↔
      (msg.sourceRole = hub → ¬ TakesOrders a.env db msg.sourceId) := by
  simp only [pendingGatewayOrders]
  split
  · next h => simp only [processPendingGatewayOrders_same_iff hfault, h, true_implies]
  · next h => exact iff_of_true ⟨rfl, rfl⟩ fun hr => absurd hr h

theorem takesOrders_undo {w : Db} {hubId : String} : TakesOrders env (db.undo w) hubId ↔ TakesOrders env db hubId :=
  ⟨fun h => ⟨h.sender, h.pending, h.fits⟩, fun h => ⟨h.sender, h.pending, h.fits⟩⟩

theorem receipt_same_iff {a' : Attempt} (hfault : a.fault = none) (hfault' : a'.fault = none) (stamp : Nat → String) :
    SameTables db (pendingGatewayOrders a' stamp msg (perform a (handleReceiptConfirmation msg) db).2).2 ↔
    ¬ Takes a.env db msg "" msg.sourceId .dispatched true ∧
    (msg.sourceRole = hub → ¬ TakesOrders a'.env db msg.sourceId) := by
  have htakes : commits a.env (handleReceiptConfirmation msg) db ≠ none ↔
      Takes a.env db msg "" msg.sourceId .dispatched true := by
    rw [commits_handleReceiptConfirmation]
    exact takes_iff
  rcases perform_cases a (handleReceiptConfirmation msg) db with ⟨r, w, h⟩ | h
  · have hnone : commits a.env (handleReceiptConfirmation msg) db = none := by
      by_contra hne
      obtain ⟨x, hx⟩ := ne_none_iff_exists'.mp hne
      obtain ⟨t, ht, hst, t', ht', hid, hst'⟩ := completed_of_commits (show _ = some (x.1, x.2) from hx)
      rw [perform_of_commits hfault hx] at h
      exact not_same_of_status ht ht' hid (by rw [hst, hst']; exact fun h => by cases h) (by rw [h]; exact ⟨rfl, rfl⟩)
    rw [h, and_iff_right (fun ht => htakes.mpr ht hnone)]
    have hpending : SameTables (db.undo w) (pendingGatewayOrders a' stamp msg (db.undo w)).2 ↔
        (msg.sourceRole = hub → ¬ TakesOrders a'.env (db.undo w) msg.sourceId) :=
      pendingGatewayOrders_same_iff hfault' stamp
    exact hpending.trans (imp_congr_right fun _ => not_congr takesOrders_undo)
  · obtain ⟨t, ht, hst, t', ht', hid, hst'⟩ := completed_of_commits h
    have hkept : t' ∈ (pendingGatewayOrders a' stamp msg
        (perform a (handleReceiptConfirmation msg) db).2).2.transactions.rows :=
      keepsSettled_pendingGatewayOrders stamp t' ht' (by rw [hst']; exact fun h => by cases h)
    refine iff_of_false (not_same_of_status ht hkept hid (by rw [hst, hst']; exact fun h => by cases h)) fun hno => ?_
    exact hno.1 (htakes.mp (by rw [h]; exact fun h => by cases h))

/-- No open transaction answers to the message any more, and for a hub's receipt
no gateway order is waiting for stock that the hub has. -/
def NothingOpen (o : Oracle) (msg : Message) (db : Db) : Prop :=
  match categorizeMessage msg.msgType with
  | .receiptConfirm => ¬ Takes (o.attempt 0).env db msg "" msg.sourceId .dispatched true ∧
      (msg.sourceRole = hub → ¬ TakesOrders (o.attempt 1).env db msg.sourceId)
  | _ => ¬ Takes (o.attempt 0).env db msg msg.sourceId "" .assigned false

/-- A confirmation leaves the tables as they are exactly when its sender has nothing open. -/
theorem confirmation_repeated_iff (o : Oracle) (hfault : ∀ i, (o.attempt i).fault = none) (hc : Confirmation msg)
    (sessionId : String) (command : Command) (db : Db) :
    SameTables db (handleOtherMessage o sessionId msg command db).2 ↔ NothingOpen o msg db := by
  rcases hc with hc | hc | hc <;> simp only [handleOtherMessage, NothingOpen, hc]
  · rw [← handleShipmentNotice_same_iff (hfault 0)]
    split <;> rfl
  · rw [← handleDispatchConfirmation_same_iff (hfault 0)]
    split <;> rfl
  · exact receipt_same_iff (hfault 0) (hfault 1) o.stamp

def twoAssigned : Db :=
  handled (itemsMessage .hubToServerStockRequest hub "hub_2" "2026-01-03" (oneItem 1 5)) oneAssigned

theorem confirmation_repeated_settled :
    (handled shipmentNotice oneAssigned).transactions.rows.map TransactionRow.status = [.dispatched] ∧
      SameTables (handled shipmentNotice oneAssigned) (handled shipmentNotice (handled shipmentNotice oneAssigned)) := by
  refine ⟨by decide, (confirmation_repeated_iff plainOracle (fun _ => rfl) (.inl rfl) "tcp_1" .unknown _).mpr ?_⟩
  intro h
  have hopen := h.open_
  revert hopen
  decide

theorem confirmation_repeated_changes : ∃ db db' : Db,
    Reach Init Step db ∧ db' = (handleOtherMessage plainOracle "tcp_1" shipmentNotice .unknown db).2 ∧
      db.transactions.rows.map TransactionRow.status = [.assigned, .assigned] ∧
      db'.transactions.rows.map TransactionRow.status = [.assigned, .dispatched] ∧
      ¬ SameTables db' (handleOtherMessage plainOracle "tcp_1" shipmentNotice .unknown db').2 := by
  refine ⟨twoAssigned, _, ?_, rfl, by decide, by decide, by decide⟩
  exact .next (.next (.next (.start ⟨rfl, rfl⟩) (.message plainOracle "tcp_1" _ .unknown))
    (.message plainOracle "tcp_1" _ .unknown)) (.message plainOracle "tcp_1" _ .unknown)

end Logistics.Idempotence
