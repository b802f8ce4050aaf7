import Logistics.OrderMatching
import Logistics.RowVersions

namespace Logistics.Sessions

open KeyedTable RowVersions JsonManager Database InventoryManager ApiGateway OrderMatching List Option

structure Writes where
  transactions : List TransactionRow
  inventory : List InventoryRow

def Writes.append (own new : Writes) : Writes := ⟨own.transactions ++ new.transactions, own.inventory ++ new.inventory⟩

theorem le_foldl_max (own : List TransactionRow) (n : Nat) : n ≤ own.foldl (fun n t => max n (t.transactionId + 1)) n ∧
    ∀ t ∈ own, t.transactionId < own.foldl (fun n t => max n (t.transactionId + 1)) n := by
  induction own generalizing n with
  | nil => exact ⟨le_rfl, by simp⟩
  | cons t own ih =>
    obtain ⟨hn, hown⟩ := ih (max n (t.transactionId + 1))
    refine ⟨(Nat.le_max_left _ _).trans hn, fun u hu => ?_⟩
    rcases mem_cons.mp hu with rfl | hu
    · exact (Nat.le_max_right n (u.transactionId + 1)).trans hn
    · exact hown u hu

/-- READ COMMITTED: a statement sees the rows that are committed when it starts
and the transaction's own versions. A commit makes this the database. -/
def visible (db : Db) (own : Writes) : Db where
  inventory := overlay db.inventory own.inventory
  transactions := overlay db.transactions own.transactions
  nextId := own.transactions.foldl (fun n t => max n (t.transactionId + 1)) db.nextId
  fresh := by
    intro t ht
    obtain ⟨hn, hown⟩ := le_foldl_max own.transactions db.nextId
    have hfind := Table.find?_eq_some.mpr ⟨ht, rfl⟩
    rw [find?_overlay, or_eq_some_iff] at hfind
    rcases hfind with h | ⟨-, h⟩
    · exact hown t (mem_of_latest h).1
    · exact (db.fresh t (Table.find?_eq_some.mp h).1).trans_le hn

theorem find?_nextId (db : Db) : db.transactions.find? db.nextId = none :=
  Table.find?_eq_none.mpr fun t ht he => absurd (db.fresh t ht) (by rw [he]; exact Nat.lt_irrefl _)

theorem insertRow_transactions (db : Db) {row : Nat → TransactionRow} (hrow : ∀ id, (row id).transactionId = id) :
    (db.insertRow row hrow).transactions = db.transactions.put (row db.nextId) := by
  rw [Table.put, dif_neg]
  · rfl
  · rw [hrow]
    intro h
    obtain ⟨t, ht, he⟩ := mem_map.mp h
    exact Table.find?_eq_none.mp (find?_nextId db) t ht he

def written (v v' : Db) : Stmt → Writes
  | .updateSource id _ _ | .updateAssigned id | .updateDispatched id _ | .updateCompleted id _ =>
    ⟨(v'.transactions.find? id).toList, []⟩
  | .insertTransaction .. | .insertOrderDispatch .. => ⟨(v'.transactions.find? v.nextId).toList, []⟩
  | .upsertInventory clientId _ _ _ | .insertInventory clientId _ _ | .adjustInventory clientId _ _ =>
    ⟨[], (v'.inventory.find? clientId).toList⟩
  | .selectByStock .. | .selectPending | .selectTransactionId .. | .selectTransaction _ | .selectInventory _ => ⟨[], []⟩

/-- An UPDATE waits for another transaction that has changed a row it finds, an
INSERT for one that has inserted or changed a row with the same key. -/
def waitsFor (db : Db) (other : Writes) : Stmt → Prop
  | .updateSource id _ _ | .updateAssigned id | .updateDispatched id _ | .updateCompleted id _ =>
    id ∈ db.transactions.rows.map TransactionRow.transactionId ∧
      id ∈ other.transactions.map TransactionRow.transactionId
  | .adjustInventory clientId _ _ =>
    clientId ∈ db.inventory.rows.map InventoryRow.clientId ∧ clientId ∈ other.inventory.map InventoryRow.clientId
  | .upsertInventory clientId _ _ _ | .insertInventory clientId _ _ =>
    clientId ∈ other.inventory.map InventoryRow.clientId
  | .insertTransaction .. | .insertOrderDispatch .. | .selectByStock .. | .selectPending | .selectTransactionId ..
  | .selectTransaction _ | .selectInventory _ => False

instance (db : Db) (other : Writes) : DecidablePred (waitsFor db other)
  | .updateSource .. | .updateAssigned _ | .updateDispatched .. | .updateCompleted .. | .adjustInventory .. =>
    inferInstanceAs (Decidable (_ ∧ _))
  | .upsertInventory .. | .insertInventory .. => inferInstanceAs (Decidable (_ ∈ _))
  | .insertTransaction .. | .insertOrderDispatch .. | .selectByStock .. | .selectPending | .selectTransactionId ..
  | .selectTransaction _ | .selectInventory _ => inferInstanceAs (Decidable False)

inductive Job
  | storeInventory (msg : Message)
  | stockRequest (msg : Message) (stamp : Nat → String)
  | replenishRequest (msg : Message)
  | receiptConfirmation (msg : Message)
  | dispatchConfirmation (msg : Message)
  | shipmentNotice (msg : Message)
  | pendingOrders (warehouseId : String) (stamp : Nat → String)
  | pendingGatewayOrders (hubId : String) (stamp : Nat → String)
  | inventoryMessage (clientId clientType : String)
  | findHub (q : Quantities)
  | insertOrder (hubId : Option String) (q : Quantities) (stamp : String)
  | findStatus (id : Nat)

def orderIds (msgType : MsgType) (stamp : Nat → String) (target : StockRequestResult → String)
    (orders : List StockRequestResult) : List Nat :=
  (lettersFrom msgType stamp target orders).map Letter.transactionId

def requestOrders (stamp : Nat → String) (result : StockRequestResult) : List Nat :=
  if result.success ∧ result.warehouseAssigned ∧ result.requestingHubId ≠ "" then
    orderIds .serverToWarehouseOrderToDispatchStockToHub stamp StockRequestResult.assignedWarehouseId [result]
  else []

def gatewayOrder (hubId : Option String) (q : Quantities) (stamp : String) (created : Option Nat) : List Nat :=
  let side := created.bind fun id => hubId.bind fun hubId =>
    (createItemsMessage .serverToHubOrderToDispatchStock server hubId (itemsOf (positiveItems q))
      (positiveItems q).length none stamp).map fun msg => MessageHandler.makeSendToUsername hubId msg (some id)
  (lettersOf (some side.toList)).map Letter.transactionId

def Job.work : Job → Work (List Nat)
  | .storeInventory msg => (InventoryManager.storeInventory msg).map fun _ => []
  | .stockRequest msg stamp => (handleStockRequest msg).map (requestOrders stamp)
  | .replenishRequest msg => (handleReplenishRequest msg).map fun _ => []
  | .receiptConfirmation msg => (handleReceiptConfirmation msg).map fun _ => []
  | .dispatchConfirmation msg => (handleDispatchConfirmation msg).map fun _ => []
  | .shipmentNotice msg => (handleShipmentNotice msg).map fun _ => []
  | .pendingOrders warehouseId stamp => (processPendingOrders warehouseId).map
      (orderIds .serverToWarehouseOrderToDispatchStockToHub stamp StockRequestResult.assignedWarehouseId)
  | .pendingGatewayOrders hubId stamp => (processPendingGatewayOrders hubId).map
      (orderIds .serverToHubOrderToDispatchStock stamp StockRequestResult.requestingHubId)
  | .inventoryMessage clientId clientType => (getClientInventoryMessage clientId clientType).map fun _ => []
  | .findHub q => (ApiGateway.findHub q).map fun _ => []
  | .insertOrder hubId q stamp =>
    (ApiGateway.insertOrder (hubId.getD "") (if hubId.isSome then .assigned else .pending) q).map
      (gatewayOrder hubId q stamp)
  | .findStatus id => (ApiGateway.findStatus id).map fun _ => []

/-- The transaction that a statement takes out of PENDING: it sets it ASSIGNED,
creates it past PENDING, or moves it on from there. -/
def taken (v : Db) : (s : Stmt) → s.Res → List Nat
  | .updateAssigned id, _ => [id]
  | .insertOrderDispatch _ status _, id => if status = .pending then [] else [id]
  | .updateDispatched id _, _ | .updateCompleted id _, _ =>
    if (v.transactions.find? id).map TransactionRow.status = some .pending then [id] else []
  | .updateSource .., _ | .insertTransaction .., _ | .upsertInventory .., _ | .insertInventory .., _
  | .adjustInventory .., _ | .selectByStock .., _ | .selectPending, _ | .selectTransactionId .., _
  | .selectTransaction _, _ | .selectInventory _, _ => []

def sourced : Stmt → List Nat
  | .updateSource id _ _ => [id]
  | _ => []

/-- The part of a database transaction that is still to come, and what it has
done: `taken` and `sourced` only serve the proofs. -/
structure Session where
  work : Work (List Nat)
  own : Writes
  taken : List Nat
  sourced : List Nat

structure Commit where
  before : Db
  own : Writes
  taken : List Nat
  sourced : List Nat

structure State (n : Nat) where
  db : Db
  session : Fin n → Option Session
  orders : List Nat
  commits : List Commit

inductive Move (n : Nat)
  | start (w : Fin n) (job : Job)
  | advance (w : Fin n) (env : Env)
  | fail (w : Fin n)

variable {n : Nat}

def State.setSession (s : State n) (w : Fin n) (x : Option Session) : State n :=
  { s with session := Function.update s.session w x }

def State.finish (s : State n) (w : Fin n) (orders : List Nat) : State n :=
  { s.setSession w none with orders := s.orders ++ orders }

def State.commit (s : State n) (w : Fin n) (x : Session) (orders : List Nat) : State n :=
  { s.finish w orders with
    db := visible s.db x.own
    commits := s.commits ++ [⟨s.db, x.own, x.taken, x.sourced⟩] }

def State.Waits (s : State n) (w : Fin n) (stmt : Stmt) : Prop :=
  ∃ w', w' ≠ w ∧ ∃ y ∈ s.session w', waitsFor s.db y.own stmt

instance (s : State n) (w : Fin n) (stmt : Stmt) : Decidable (s.Waits w stmt) :=
  inferInstanceAs (Decidable (∃ w', w' ≠ w ∧ ∃ y ∈ s.session w', waitsFor s.db y.own stmt))

def Session.executed (x : Session) (v v' : Db) (stmt : Stmt) (k : stmt.Res → Work (List Nat)) (r : stmt.Res) :
    Session :=
  ⟨k r, x.own.append (written v v' stmt), x.taken ++ Sessions.taken v stmt r, x.sourced ++ Sessions.sourced stmt⟩

/-- The sequence behind `transaction_id` is not part of a transaction: all
sessions see it move on at once. -/
def State.executed (s : State n) (w : Fin n) (x : Session) (stmt : Stmt) (k : stmt.Res → Work (List Nat))
    (r : stmt.Res) (v' : Db) : State n :=
  { s.setSession w (some (x.executed (visible s.db x.own) v' stmt k r)) with db := s.db.undo v' }

/-- One move of one worker, or none when it cannot be made. Any statement or
commit may fail, as the one does that ends a deadlock. -/
def State.next (s : State n) : Move n → Option (State n)
  | .start w job =>
    match s.session w with
    | none => some (s.setSession w (some ⟨job.work, ⟨[], []⟩, [], []⟩))
    | some _ => none
  | .advance w env => (s.session w).bind fun x =>
    match x.work with
    | .rollback orders => some (s.finish w orders)
    | .commit orders _ => some (s.commit w x orders)
    | .exec stmt _ k =>
      if s.Waits w stmt then none
      else (exec env stmt (visible s.db x.own)).map fun r => s.executed w x stmt k r.1 r.2
  | .fail w => (s.session w).bind fun x =>
    match x.work with
    | .rollback _ => none
    | .commit _ thrown | .exec _ thrown _ => some (s.finish w thrown)

def State.run (s : State n) : List (Move n) → Option (State n)
  | [] => some s
  | m :: rest => (s.next m).bind fun t => t.run rest

/-- The row that an UPDATE is about to change still is where the handler read it. -/
def Current (v : Db) : Stmt → Prop
  | .updateSource id _ _ | .updateAssigned id => (v.transactions.find? id).map TransactionRow.status = some .pending
  | .updateDispatched id _ => (v.transactions.find? id).map TransactionRow.status ≠ some .completed
  | _ => True

instance (v : Db) : DecidablePred (Current v)
  | .updateSource .. | .updateAssigned _ => inferInstanceAs (Decidable (_ = _))
  | .updateDispatched .. => inferInstanceAs (Decidable (_ ≠ _))
  | .updateCompleted .. | .insertTransaction .. | .insertOrderDispatch .. | .upsertInventory .. | .insertInventory ..
  | .adjustInventory .. | .selectByStock .. | .selectPending | .selectTransactionId .. | .selectTransaction _
  | .selectInventory _ => inferInstanceAs (Decidable True)

def MayAdvance (v : Db) : Work (List Nat) → Prop
  | .exec stmt _ _ => Current v stmt
  | .rollback _ | .commit .. => True

instance (v : Db) : DecidablePred (MayAdvance v)
  | .exec stmt _ _ => inferInstanceAs (Decidable (Current v stmt))
  | .rollback _ | .commit .. => inferInstanceAs (Decidable True)

def MayFail : Work (List Nat) → Prop
  | .commit _ thrown | .exec _ thrown _ => thrown = []
  | .rollback _ => True

instance : DecidablePred MayFail
  | .commit .. | .exec .. => inferInstanceAs (Decidable (_ = _))
  | .rollback _ => inferInstanceAs (Decidable True)

def Move.Meets (s : State n) : Move n → Prop
  | .start .. => True
  | .advance w _ => ∀ x ∈ s.session w, MayAdvance (visible s.db x.own) x.work
  | .fail w => ∀ x ∈ s.session w, MayFail x.work

instance (s : State n) : DecidablePred (Move.Meets s)
  | .start .. => inferInstanceAs (Decidable True)
  | .advance w _ => inferInstanceAs (Decidable (∀ x ∈ s.session w, MayAdvance (visible s.db x.own) x.work))
  | .fail w => inferInstanceAs (Decidable (∀ x ∈ s.session w, MayFail x.work))

def MeetsAlong (s : State n) : List (Move n) → Prop
  | [] => True
  | m :: rest => m.Meets s ∧ ∀ t ∈ s.next m, MeetsAlong t rest

instance decidableMeetsAlong : (s : State n) → (moves : List (Move n)) → Decidable (MeetsAlong s moves)
  | _, [] => inferInstanceAs (Decidable True)
  | s, m :: rest =>
    have := fun t : State n => decidableMeetsAlong t rest
    inferInstanceAs (Decidable (m.Meets s ∧ ∀ t ∈ s.next m, MeetsAlong t rest))

structure Init (s : State n) : Prop where
  idle : ∀ w, s.session w = none
  orders : s.orders = []
  commits : s.commits = []

def stage : Status → Nat
  | .pending => 0
  | .assigned => 1
  | .dispatched => 2
  | .completed => 3

structure Follows (taken sourced : List Nat) (old : Option TransactionRow) (new : TransactionRow) : Prop where
  forward : ∀ t ∈ old, stage t.status ≤ stage new.status
  source : ∀ t ∈ old, new.sourceId ≠ t.sourceId → new.transactionId ∈ sourced
  leaves : (∀ t ∈ old, t.status = .pending) → new.status ≠ .pending → new.transactionId ∈ taken

structure SingleAssignment (s : State n) : Prop where
  once : (s.commits.flatMap Commit.taken).Nodup
  source : ∀ c ∈ s.commits, ∀ id ∈ c.sourced, id ∈ c.taken
  follows : ∀ c ∈ s.commits, ∀ t ∈ (visible c.before c.own).transactions.rows,
    Follows c.taken c.sourced (c.before.transactions.find? t.transactionId) t
  orders : s.orders.Nodup

variable {env : Env} {stmt : Stmt} {r : stmt.Res} {db v v' : Db} {t u : TransactionRow} {old : Option TransactionRow}
  {ts ts' ss ss' : List Nat} {status : Status}

theorem stage_pos : 0 < stage status ↔ status ≠ .pending := by
  cases status <;> simp [stage]

theorem Follows.refl (t : TransactionRow) : Follows ts ss (some t) t := by
  refine ⟨?_, ?_, ?_⟩
  · rintro _ ⟨⟩
    exact le_rfl
  · rintro _ ⟨⟩ h
    exact absurd rfl h
  · intro h hne
    exact absurd (h t rfl) hne

theorem Follows.trans (h : Follows ts ss old u) (h' : Follows ts' ss' (some u) t)
    (hid : t.transactionId = u.transactionId) : Follows (ts ++ ts') (ss ++ ss') old t := by
  refine ⟨fun o ho => (h.forward o ho).trans (h'.forward u rfl), fun o ho hne => ?_, fun hold hne => ?_⟩
  · by_cases hs : t.sourceId = u.sourceId
    · rw [hid]
      exact mem_append_left _ (h.source o ho (hs ▸ hne))
    · exact mem_append_right _ (h'.source u rfl hs)
  · by_cases hu : u.status = .pending
    · refine mem_append_right _ (h'.leaves ?_ hne)
      rintro _ ⟨⟩
      exact hu
    · rw [hid]
      exact mem_append_left _ (h.leaves hold hu)

theorem Follows.mono (h : Follows ts ss old t) (ts' ss' : List Nat) : Follows (ts ++ ts') (ss ++ ss') old t :=
  h.trans (.refl t) rfl

theorem Follows.not_pending (h : Follows ts ss (some u) t) (hu : u.status ≠ .pending) : t.status ≠ .pending :=
  stage_pos.mp ((stage_pos.mpr hu).trans_le (h.forward u rfl))

structure Version (v v' : Db) (stmt : Stmt) (r : stmt.Res) (t : TransactionRow) : Prop where
  written : (written v v' stmt).transactions = [t]
  table : v'.transactions = v.transactions.put t
  follows : Follows (taken v stmt r) (sourced stmt) (v.transactions.find? t.transactionId) t
  locks : (v.transactions.find? t.transactionId).isSome ∧ (∀ db other,
      t.transactionId ∈ db.transactions.rows.map TransactionRow.transactionId →
      t.transactionId ∈ other.transactions.map TransactionRow.transactionId → waitsFor db other stmt) ∨
    v.transactions.find? t.transactionId = none ∧ t.transactionId = v.nextId
  takes : taken v stmt r = [] ∨ taken v stmt r = [t.transactionId] ∧
    (∀ u ∈ v.transactions.find? t.transactionId, u.status = .pending) ∧ t.status ≠ .pending

def Untouched (v v' : Db) (stmt : Stmt) (r : stmt.Res) : Prop :=
  (written v v' stmt).transactions = [] ∧ v'.transactions = v.transactions ∧ taken v stmt r = []

theorem version_insertRow {row : Nat → TransactionRow} {hrow : ∀ id, (row id).transactionId = id}
    (hwritten : (written v (v.insertRow row hrow) stmt).transactions =
      ((v.insertRow row hrow).transactions.find? v.nextId).toList)
    (htaken : taken v stmt r = if (row v.nextId).status = .pending then [] else [v.nextId]) :
    Version v (v.insertRow row hrow) stmt r (row v.nextId) := by
  have hnone := find?_nextId v
  have htable := insertRow_transactions v hrow
  refine ⟨?_, htable, ?_, ?_, ?_⟩
  · rw [hwritten, htable, find?_put, if_pos (hrow _).symm]
    rfl
  · rw [hrow, hnone, htaken]
    refine ⟨by simp, by simp, fun _ hne => ?_⟩
    rw [if_neg hne, hrow]
    exact mem_singleton_self _
  · rw [hrow]
    exact .inr ⟨hnone, rfl⟩
  · rw [hrow, hnone, htaken]
    split
    · exact .inl rfl
    · next hne => exact .inr ⟨rfl, by simp, hne⟩

theorem follows_status (hstage : stage u.status ≤ stage t.status) (hsource : t.sourceId = u.sourceId)
    (hts : u.status = .pending → t.status ≠ .pending → t.transactionId ∈ ts) : Follows ts ss (some u) t := by
  refine ⟨?_, ?_, fun h => hts (h u rfl)⟩
  · rintro _ ⟨⟩
    exact hstage
  · rintro _ ⟨⟩ hne
    exact absurd hsource hne

section Updates

variable {id : Nat} {f : TransactionRow → TransactionRow} {hf : ∀ t, (f t).transactionId = t.transactionId}
  (hwritten : (written v (v.updateTransaction id f hf) stmt).transactions =
    ((v.updateTransaction id f hf).transactions.find? id).toList) (hlocks : ∀ db other, waitsFor db other stmt ↔
    id ∈ db.transactions.rows.map TransactionRow.transactionId ∧ id ∈ other.transactions.map TransactionRow.transactionId)

include hwritten hlocks

theorem version_update (hu : v.transactions.find? id = some u)
    (hfollows : Follows (taken v stmt r) (sourced stmt) (some u) (f u))
    (htakes : taken v stmt r = [] ∨ taken v stmt r = [id] ∧ u.status = .pending ∧ (f u).status ≠ .pending) :
    Version v (v.updateTransaction id f hf) stmt r (f u) := by
  obtain ⟨-, rfl⟩ := Table.find?_eq_some.mp hu
  have hid : (f u).transactionId = u.transactionId := hf u
  refine ⟨?_, update_eq_put _ hu hf, ?_, ?_, ?_⟩
  · rw [hwritten, Db.updateTransaction, Table.find?_update, if_pos rfl, hu]
    rfl
  · rw [hid, hu]
    exact hfollows
  · rw [hid]
    exact .inl ⟨by rw [hu]; rfl, fun db other h₁ h₂ => (hlocks db other).mpr ⟨h₁, h₂⟩⟩
  · rw [hid, hu]
    rcases htakes with htaken | ⟨htaken, hpending, hne⟩
    · exact .inl htaken
    · refine .inr ⟨htaken, ?_, hne⟩
      rintro _ ⟨⟩
      exact hpending

theorem effect_moved (hstage : ∀ u ∈ v.transactions.find? id, stage u.status ≤ stage (f u).status ∧
      (f u).status ≠ .pending)
    (hsource : ∀ u, (f u).sourceId = u.sourceId) (htaken : taken v stmt r =
      if (v.transactions.find? id).map TransactionRow.status = some .pending then [id] else []) :
    Untouched v (v.updateTransaction id f hf) stmt r ∨ ∃ t, Version v (v.updateTransaction id f hf) stmt r t := by
  cases hu : v.transactions.find? id with
  | none =>
    rw [hu] at htaken
    have hsame : (v.updateTransaction id f hf).transactions = v.transactions := update_eq_self _ hu hf
    refine .inl ⟨?_, hsame, htaken⟩
    rw [hwritten, hsame, hu]
    rfl
  | some u =>
    rw [hu, map_some] at htaken
    obtain ⟨hle, hne⟩ := hstage u hu
    have hid := (Table.find?_eq_some.mp hu).2
    refine .inr ⟨f u, version_update hwritten hlocks hu (follows_status hle (hsource u) ?_) ?_⟩
    · intro hst _
      rw [htaken, if_pos (by rw [hst]), hf, hid]
      exact mem_singleton_self _
    · rw [htaken]
      split
      · next hst => exact .inr ⟨rfl, some_injective _ hst, hne⟩
      · exact .inl rfl

end Updates

theorem stage_le_two (h : status ≠ .completed) : stage status ≤ 2 := by
  cases status <;> simp_all [stage]

theorem stage_le_three (status : Status) : stage status ≤ 3 := by
  cases status <;> simp [stage]

/-- A statement whose UPDATE is current leaves the transaction rows alone or
writes one version that follows on what its transaction has seen. -/
theorem exec_effect (h : exec env stmt v = some (r, v')) (hcur : Current v stmt) :
    Untouched v v' stmt r ∨ ∃ t, Version v v' stmt r t := by
  cases stmt with
  | updateSource id clientId clientType =>
    cases h
    obtain ⟨u, hu, hst⟩ := map_eq_some_iff.mp hcur
    refine .inr ⟨_, version_update rfl (fun _ _ => Iff.rfl) hu ⟨?_, ?_, ?_⟩ (.inl rfl)⟩
    · rintro _ ⟨⟩
      exact le_rfl
    · intro _ _ _
      rw [(Table.find?_eq_some.mp hu).2]
      exact mem_singleton_self _
    · intro _ hne
      exact absurd hst hne
  | updateAssigned id =>
    cases h
    refine effect_moved rfl (fun _ _ => Iff.rfl) (fun u hu => ?_) (fun _ => rfl) (if_pos hcur).symm
    obtain ⟨w, hw, hst⟩ := map_eq_some_iff.mp hcur
    cases hw.symm.trans hu
    simp [hst, stage]
  | updateDispatched id timestamp =>
    obtain ⟨ts, -, he⟩ := map_eq_some_iff.mp h
    cases he
    refine effect_moved rfl (fun _ _ => Iff.rfl) (fun u hu => ⟨stage_le_two fun hst => hcur ?_, by simp⟩)
      (fun _ => rfl) rfl
    rw [show v.transactions.find? id = some u from hu, map_some, hst]
  | updateCompleted id timestamp =>
    obtain ⟨ts, -, he⟩ := map_eq_some_iff.mp h
    cases he
    exact effect_moved rfl (fun _ _ => Iff.rfl) (fun u _ => ⟨stage_le_three _, by simp⟩) (fun _ => rfl) rfl
  | insertTransaction transactionType destinationId destinationType q orderTimestamp =>
    obtain ⟨ts, -, he⟩ := map_eq_some_iff.mp h
    cases he
    exact .inr ⟨_, version_insertRow rfl rfl⟩
  | insertOrderDispatch sourceId status q =>
    cases h
    exact .inr ⟨_, version_insertRow rfl rfl⟩
  | upsertInventory clientId clientType q timestamp =>
    obtain ⟨ts, -, he⟩ := map_eq_some_iff.mp h
    cases he
    exact .inl ⟨rfl, rfl, rfl⟩
  | insertInventory clientId clientType initialStock =>
    obtain ⟨d, hd, he⟩ := map_eq_some_iff.mp h
    cases he
    rw [Db.insertInventory] at hd
    split at hd
    · cases hd
    · cases hd
      exact .inl ⟨rfl, rfl, rfl⟩
  | adjustInventory clientId q add =>
    obtain ⟨d, hd, he⟩ := map_eq_some_iff.mp h
    cases he
    rw [Db.adjustInventory] at hd
    split at hd
    · cases hd
      exact .inl ⟨rfl, rfl, rfl⟩
    · cases hd
  | selectByStock | selectPending | selectTransactionId | selectTransaction | selectInventory =>
    cases h
    exact .inl ⟨rfl, rfl, rfl⟩

end Logistics.Sessions
