import Logistics.KeyedTable
import Logistics.TransactionProgram
import Logistics.JsonManager

namespace Logistics.Database

open KeyedTable TransactionProgram JsonManager

inductive TransactionType
  | stockRequest
  | replenish
  | orderDispatch
  deriving DecidableEq, Repr

inductive Status
  | pending
  | assigned
  | dispatched
  | completed
  deriving DecidableEq, Repr

structure TransactionRow where
  transactionId : Nat
  transactionType : TransactionType
  sourceId : Option String
  sourceType : Option String
  destinationId : String
  destinationType : String
  status : Status
  quantities : Quantities
  orderTimestamp : Int
  dispatchTimestamp : Option Int
  receptionTimestamp : Option Int
  deriving DecidableEq

structure InventoryRow where
  clientId : String
  clientType : String
  stock : Quantities
  lastUpdated : Int
  deriving DecidableEq

structure Db where
  inventory : Table InventoryRow.clientId
  transactions : Table TransactionRow.transactionId
  nextId : Nat
  fresh : ∀ t ∈ transactions.rows, t.transactionId < nextId

/-- What the server does not choose itself: the clock, the timestamp and integer
texts that PostgreSQL accepts, the value behind `random()`, and the order in which
rows with equal timestamps come out of a sort. -/
structure Env where
  now : Int
  parseTimestamp : String → Option Int
  parseInteger : String → Option Nat
  pick : Nat
  rank : Nat → Nat

def initialStockHub : Int := 100
def initialStockWarehouse : Int := 500
def maxPendingTransactions : Nat := 100

def inInteger (x : Int) : Prop := -2 ^ 31 ≤ x ∧ x < 2 ^ 31

instance (x : Int) : Decidable (inInteger x) := inferInstanceAs (Decidable (_ ∧ _))

def Db.updateTransaction (db : Db) (id : Nat) (f : TransactionRow → TransactionRow)
    (hf : ∀ t, (f t).transactionId = t.transactionId) : Db :=
  { db with
    transactions := db.transactions.update id f hf
    fresh := by
      intro t ht
      rcases mem_updateRows.mp ht with ⟨ht, _⟩ | ⟨r, hr, _, rfl⟩
      · exact db.fresh t ht
      · rw [hf]; exact db.fresh r hr }

def Db.insertRow (db : Db) (row : Nat → TransactionRow) (hrow : ∀ id, (row id).transactionId = id) : Db where
  inventory := db.inventory
  transactions := db.transactions.insert (row db.nextId) (by
    rw [hrow]
    intro h
    obtain ⟨t, ht, he⟩ := List.mem_map.mp h
    exact absurd (db.fresh t ht) (by rw [he]; exact Nat.lt_irrefl _))
  nextId := db.nextId + 1
  fresh := by
    intro t ht
    rcases List.mem_append.mp ht with ht | ht
    · exact Nat.lt_succ_of_lt (db.fresh t ht)
    · rw [List.mem_singleton.mp ht, hrow]; exact Nat.lt_succ_self _

def Db.undo (base work : Db) : Db :=
  { base with
    nextId := max base.nextId work.nextId
    fresh := fun t ht => (base.fresh t ht).trans_le (Nat.le_max_left _ _) }

def adjusted (add : Bool) (stock q : Quantities) : Quantities :=
  fun i => if add then stock i + q i else max 0 (stock i - q i)

def adjustFits (add : Bool) (stock q : Quantities) : Prop :=
  ∀ i, inInteger (if add then stock i + q i else stock i - q i)

instance (add : Bool) (stock q : Quantities) : Decidable (adjustFits add stock q) :=
  inferInstanceAs (Decidable (∀ _, _))

def Db.adjustInventory (db : Db) (clientId : String) (q : Quantities) (add : Bool) (now : Int) : Option Db :=
  if ∀ r ∈ db.inventory.find? clientId, adjustFits add r.stock q then
    some { db with
      inventory := db.inventory.update clientId
        (fun r => { r with stock := adjusted add r.stock q, lastUpdated := now }) fun _ => rfl }
  else none

def Db.insertInventory (db : Db) (row : InventoryRow) : Option Db :=
  if h : row.clientId ∈ db.inventory.rows.map InventoryRow.clientId then none
  else some { db with inventory := db.inventory.insert row h }

def hasStock (clientType : String) (q : Quantities) (r : InventoryRow) : Prop :=
  r.clientType = clientType ∧ ∀ i, q i ≤ r.stock i

instance (clientType : String) (q : Quantities) : DecidablePred (hasStock clientType q) :=
  fun _ => inferInstanceAs (Decidable (_ ∧ _))

def Db.pickByStock (db : Db) (env : Env) (clientType : String) (q : Quantities) : Option String :=
  let rows := db.inventory.rows.filter fun r => hasStock clientType q r
  rows[env.pick % rows.length]?.map InventoryRow.clientId

def newer (env : Env) (a b : TransactionRow) : Prop :=
  b.orderTimestamp < a.orderTimestamp ∨
    b.orderTimestamp = a.orderTimestamp ∧ env.rank a.transactionId ≤ env.rank b.transactionId

instance (env : Env) : DecidableRel (newer env) := fun _ _ => inferInstanceAs (Decidable (_ ∨ _))

def older (env : Env) (a b : TransactionRow) : Prop :=
  a.orderTimestamp < b.orderTimestamp ∨
    a.orderTimestamp = b.orderTimestamp ∧ env.rank a.transactionId ≤ env.rank b.transactionId

instance (env : Env) : DecidableRel (older env) := fun _ _ => inferInstanceAs (Decidable (_ ∨ _))

def isMatch (sourceId destinationId : String) (status : Status) (t : TransactionRow) : Prop :=
  (sourceId = "" ∨ t.sourceId = some sourceId) ∧ (destinationId = "" ∨ t.destinationId = destinationId) ∧
    t.status = status

instance (sourceId destinationId : String) (status : Status) : DecidablePred (isMatch sourceId destinationId status) :=
  fun _ => inferInstanceAs (Decidable (_ ∧ _))

def Db.findNewest (db : Db) (env : Env) (sourceId destinationId : String) (status : Status) : Option Nat :=
  ((db.transactions.rows.filter fun t => isMatch sourceId destinationId status t).insertionSort
    (newer env)).head?.map TransactionRow.transactionId

def Db.pendingOldestFirst (db : Db) (env : Env) : List TransactionRow :=
  (db.transactions.rows.filter fun t => t.status = .pending).insertionSort (older env)

inductive Stmt
  | upsertInventory (clientId clientType : String) (q : Quantities) (timestamp : String)
  | selectByStock (clientType : String) (q : Quantities)
  | insertTransaction (transactionType : TransactionType) (destinationId destinationType : String)
      (q : Quantities) (orderTimestamp : String)
  | insertOrderDispatch (sourceId : String) (status : Status) (q : Quantities)
  | updateSource (id : Nat) (clientId clientType : String)
  | updateAssigned (id : Nat)
  | updateDispatched (id : Nat) (timestamp : String)
  | updateCompleted (id : Nat) (timestamp : String)
  | selectPending
  | selectTransactionId (sourceId destinationId : String) (status : Status)
  | selectTransaction (id : Nat)
  | selectInventory (clientId : String)
  | insertInventory (clientId clientType : String) (initialStock : Int)
  | adjustInventory (clientId : String) (q : Quantities) (add : Bool)

abbrev Stmt.Res : Stmt → Type
  | .selectByStock .. => Option String
  | .insertTransaction .. | .insertOrderDispatch .. => Nat
  | .selectPending => List TransactionRow
  | .selectTransactionId .. => Option Nat
  | .selectTransaction _ => Option TransactionRow
  | .selectInventory _ => Option Quantities
  | .upsertInventory .. | .updateSource .. | .updateAssigned .. | .updateDispatched .. | .updateCompleted ..
  | .insertInventory .. | .adjustInventory .. => Unit

abbrev Work (α : Type) := Prog Stmt Stmt.Res α

def Db.upsertInventory (db : Db) (row : InventoryRow) : Db := { db with inventory := db.inventory.put row }

def Db.setSource (db : Db) (id : Nat) (clientId clientType : String) : Db :=
  db.updateTransaction id (fun t => { t with sourceId := some clientId, sourceType := some clientType }) fun _ => rfl

def Db.setAssigned (db : Db) (id : Nat) : Db :=
  db.updateTransaction id (fun t => { t with status := .assigned }) fun _ => rfl

def Db.setDispatched (db : Db) (id : Nat) (timestamp : Int) : Db :=
  db.updateTransaction id (fun t => { t with status := .dispatched, dispatchTimestamp := some timestamp }) fun _ => rfl

def Db.setCompleted (db : Db) (id : Nat) (timestamp : Int) : Db :=
  db.updateTransaction id (fun t => { t with status := .completed, receptionTimestamp := some timestamp }) fun _ => rfl

def Db.assign (db : Db) (id : Nat) (clientId clientType : String) : Db :=
  db.updateTransaction id
    (fun t => { t with sourceId := some clientId, sourceType := some clientType, status := .assigned }) fun _ => rfl

theorem Db.setAssigned_setSource (db : Db) (id : Nat) (clientId clientType : String) :
    (db.setSource id clientId clientType).setAssigned id = db.assign id clientId clientType := by
  simp only [Db.setSource, Db.setAssigned, Db.assign, Db.updateTransaction, Table.update_update]

theorem Db.updateTransaction_insertRow (db : Db) {row : Nat → TransactionRow} (hrow : ∀ id, (row id).transactionId = id)
    {f : TransactionRow → TransactionRow} (hf : ∀ t, (f t).transactionId = t.transactionId) :
    (db.insertRow row hrow).updateTransaction db.nextId f hf = db.insertRow (fun id => f (row id))
    fun id => (hf _).trans (hrow id) := by
  have h := db.transactions.update_insert (row db.nextId) (by
    rw [hrow]
    intro h
    obtain ⟨t, ht, he⟩ := List.mem_map.mp h
    exact absurd (db.fresh t ht) (by rw [he]; exact Nat.lt_irrefl _)) f hf
  simp only [hrow] at h
  simp only [Db.updateTransaction, Db.insertRow, h]

def Db.insertTransaction (db : Db) (transactionType : TransactionType) (destinationId destinationType : String)
    (q : Quantities) (orderTimestamp : Int) : Db :=
  db.insertRow (fun id => ⟨id, transactionType, none, none, destinationId, destinationType, .pending, q,
    orderTimestamp, none, none⟩) fun _ => rfl

def Db.insertOrderDispatch (db : Db) (sourceId : String) (status : Status) (q : Quantities) (now : Int) : Db :=
  db.insertRow (fun id => ⟨id, .orderDispatch, some sourceId, some hub, "EXTERNAL_CLIENT", "EXTERNAL_CLIENT", status,
    q, now, none, none⟩) fun _ => rfl

def exec (env : Env) : (s : Stmt) → Db → Option (s.Res × Db)
  | .upsertInventory clientId clientType q timestamp, db =>
    (env.parseTimestamp timestamp).map fun ts => ((), db.upsertInventory ⟨clientId, clientType, q, ts⟩)
  | .selectByStock clientType q, db => some (db.pickByStock env clientType q, db)
  | .insertTransaction transactionType destinationId destinationType q orderTimestamp, db =>
    (env.parseTimestamp orderTimestamp).map fun ts =>
      (db.nextId, db.insertTransaction transactionType destinationId destinationType q ts)
  | .insertOrderDispatch sourceId status q, db => some (db.nextId, db.insertOrderDispatch sourceId status q env.now)
  | .updateSource id clientId clientType, db => some ((), db.setSource id clientId clientType)
  | .updateAssigned id, db => some ((), db.setAssigned id)
  | .updateDispatched id timestamp, db => (env.parseTimestamp timestamp).map fun ts => ((), db.setDispatched id ts)
  | .updateCompleted id timestamp, db => (env.parseTimestamp timestamp).map fun ts => ((), db.setCompleted id ts)
  | .selectPending, db => some (db.pendingOldestFirst env, db)
  | .selectTransactionId sourceId destinationId status, db => some (db.findNewest env sourceId destinationId status, db)
  | .selectTransaction id, db => some (db.transactions.find? id, db)
  | .selectInventory clientId, db => some ((db.inventory.find? clientId).map InventoryRow.stock, db)
  | .insertInventory clientId clientType initialStock, db =>
    (db.insertInventory ⟨clientId, clientType, fun _ => initialStock, env.now⟩).map fun db => ((), db)
  | .adjustInventory clientId q add, db => (db.adjustInventory clientId q add env.now).map fun db => ((), db)

end Logistics.Database
