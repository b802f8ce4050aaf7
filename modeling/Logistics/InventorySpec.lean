import Logistics.InventoryManager

namespace Logistics.InventorySpec

open KeyedTable TransactionProgram JsonManager Database InventoryManager List Option

variable {α β : Type} {env : Env} {msg : Message} {db db' : Db}

instance : Std.Total (newer env) := ⟨fun a b => by unfold newer; omega⟩

instance : IsTrans TransactionRow (newer env) := ⟨fun a b c => by unfold newer; omega⟩

variable {destinationId sourceId : String} {status : Status}

theorem findNewest_eq_none : db.findNewest env sourceId destinationId status = none ↔ ∀ t ∈ db.transactions.rows,
    ¬ isMatch sourceId destinationId status t := by
  rw [Db.findNewest, map_eq_none_iff, head?_eq_none_iff, ← length_eq_zero_iff,
    length_insertionSort, length_eq_zero_iff]
  simp

theorem findNewest_eq_some {id : Nat} (h : db.findNewest env sourceId destinationId status = some id) :
    ∃ t ∈ db.transactions.rows, t.transactionId = id ∧ isMatch sourceId destinationId status t ∧
      ∀ u ∈ db.transactions.rows, isMatch sourceId destinationId status u → u.orderTimestamp ≤ t.orderTimestamp := by
  obtain ⟨t, ht, rfl⟩ := map_eq_some_iff.mp h
  have hmem (u : TransactionRow) : u ∈ (db.transactions.rows.filter fun t => isMatch sourceId destinationId status
      t).insertionSort (newer env) ↔ u ∈ db.transactions.rows ∧ isMatch sourceId destinationId status u := by
    rw [mem_insertionSort, mem_filter, decide_eq_true_eq]
  have hsorted := pairwise_insertionSort (newer env)
    (db.transactions.rows.filter fun t => isMatch sourceId destinationId status t)
  generalize List.insertionSort (newer env) _ = found at ht hmem hsorted
  cases found with
  | nil => cases ht
  | cons x rest =>
    cases ht
    obtain ⟨htm, htp⟩ := (hmem t).mp mem_cons_self
    refine ⟨t, htm, rfl, htp, fun u hu hm => ?_⟩
    rcases mem_cons.mp ((hmem u).mpr ⟨hu, hm⟩) with rfl | hu
    · exact le_rfl
    · have hle := rel_of_pairwise_cons hsorted hu
      unfold newer at hle
      omega

variable {t : TransactionRow}

theorem findNewest_of_newest (ht : t ∈ db.transactions.rows) (hm : isMatch sourceId destinationId status t)
    (hmax : ∀ u ∈ db.transactions.rows, isMatch sourceId destinationId status u →
      u.transactionId ≠ t.transactionId → u.orderTimestamp < t.orderTimestamp) :
    db.findNewest env sourceId destinationId status = some t.transactionId := by
  cases h : db.findNewest env sourceId destinationId status with
  | none => exact absurd hm (findNewest_eq_none.mp h t ht)
  | some id =>
    obtain ⟨u, hu, rfl, hum, hle⟩ := findNewest_eq_some h
    by_contra hne
    have hlt := hmax u hu hum fun he => hne (by rw [he])
    have := hle t ht hm
    omega

def commits (env : Env) (work : Work α) (db : Db) : Option (α × Db) := work.committed (exec env) db

@[simp] theorem commits_commit (r thrown : α) : commits env (.commit r thrown) db = some (r, db) := rfl

@[simp] theorem commits_rollback (r : α) : commits env (.rollback r) db = none := rfl

theorem commits_exec (s : Stmt) (thrown : α) (k : s.Res → Work α) :
    commits env (.exec s thrown k) db = (exec env s db).bind fun x => commits env (k x.1) x.2 := rfl

theorem perform_cases (a : Attempt) (work : Work α) (db : Db) :
    (∃ r w, perform a work db = (r, db.undo w)) ∨ commits a.env work db = some (perform a work db) :=
  work.run_cases a.fault db db

variable {a : Attempt} {work : Work α} {P : α → Prop}

theorem perform_exits {Q : α → Prop} (hw : work.Exits (exec a.env) P Q db) :
    (P (perform a work db).1 ∧ ∃ w, (perform a work db).2 = db.undo w) ∨
      (Q (perform a work db).1 ∧ commits a.env work db = some (perform a work db)) :=
  Prog.run_exits hw a.fault db

theorem perform_induct {P : Db → Prop} (a : Attempt) (work : Work α) (db : Db) (hundo : ∀ w, P (db.undo w))
    (hc : ∀ r db', commits a.env work db = some (r, db') → P db') : P (perform a work db).2 := by
  rcases perform_cases a work db with ⟨r, w, h⟩ | h
  · rw [h]
    exact hundo w
  · exact hc _ _ h

theorem perform_of_commits (hfault : a.fault = none) {r : α × Db}
    (h : commits a.env work db = some r) : perform a work db = r := by
  rw [perform, hfault]
  exact Prog.run_of_committed h

theorem perform_of_no_fault (hfault : a.fault = none) (work : Work α) (db : Db) :
    (commits a.env work db = none ∧ ∃ r w, perform a work db = (r, db.undo w)) ∨
      commits a.env work db = some (perform a work db) := by
  rcases perform_cases a work db with h | h
  · cases hc : commits a.env work db with
    | none => exact .inl ⟨rfl, h⟩
    | some x =>
      right
      rw [perform_of_commits hfault hc]
  · exact .inr h

theorem perform_of_aborts (hfault : a.fault = none)
    (hw : work.Aborts P) (h : commits a.env work db = none) : P (perform a work db).1 := by
  rw [perform, hfault]
  exact Prog.run_of_aborts hw h

theorem commits_storeInventory : commits env (storeInventory msg) db =
    if msg.sourceId = "" ∨ msg.sourceRole = "" then some (true, db)
    else (env.parseTimestamp msg.timestamp).map fun ts =>
      (true, db.upsertInventory ⟨msg.sourceId, msg.sourceRole, extractQuantities msg.items.items, ts⟩) := by
  rw [storeInventory, updateClientInventory]
  by_cases h : msg.sourceId = "" ∨ msg.sourceRole = ""
  · rw [if_pos h, if_pos h]
    rfl
  · rw [if_neg h, if_neg h, commits_exec]
    cases hts : env.parseTimestamp msg.timestamp <;> simp [hts, exec]

/-- The statement or the commit of the update fails, or the database does not
read the timestamp of the message. -/
def StoreFails (a : Attempt) (msg : Message) : Prop :=
  if msg.sourceId = "" ∨ msg.sourceRole = "" then a.fault = some 0
  else a.fault = some 0 ∨ a.fault = some 1 ∨ a.env.parseTimestamp msg.timestamp = none

theorem perform_storeInventory_eq_false (a : Attempt) (msg : Message) (db : Db) :
    (perform a (storeInventory msg) db).1 = false ↔ StoreFails a msg := by
  rw [perform, storeInventory, updateClientInventory, StoreFails]
  by_cases h : msg.sourceId = "" ∨ msg.sourceRole = ""
  · rw [if_pos h, if_pos h]
    rcases a.fault with _ | _ | _ <;> simp [Prog.run]
  · rw [if_neg h, if_neg h]
    cases hts : a.env.parseTimestamp msg.timestamp with
    | none => rcases a.fault with _ | _ | _ <;> simp [Prog.run, exec, hts]
    | some ts => rcases a.fault with _ | _ | _ | _ <;> simp [Prog.run, exec, hts]

variable {q : Quantities} {add : Bool} {clientId : String}

theorem commits_adjustClientInventory {thrown : α} {k : Int → Work α} :
    commits env (adjustClientInventory clientId q add thrown k) db = if clientId = "" then commits env (k (-1))
    db else (db.adjustInventory clientId q add env.now).bind fun db₁ => commits env (k 0) db₁ := by
  rw [adjustClientInventory]
  split
  · rfl
  · rw [commits_exec]
    cases h : db.adjustInventory clientId q add env.now <;> simp [exec, h]

theorem commits_updateDispatched (id : Nat) (timestamp : String) (thrown : α) (k : Unit → Work α) :
    commits env (.exec (.updateDispatched id timestamp) thrown k) db =
      (env.parseTimestamp timestamp).bind fun ts => commits env (k ()) (db.setDispatched id ts) := by
  rw [commits_exec]
  cases h : env.parseTimestamp timestamp <;> simp [exec, h]

theorem commits_updateCompleted (id : Nat) (timestamp : String) (thrown : α) (k : Unit → Work α) :
    commits env (.exec (.updateCompleted id timestamp) thrown k) db =
      (env.parseTimestamp timestamp).bind fun ts => commits env (k ()) (db.setCompleted id ts) := by
  rw [commits_exec]
  cases h : env.parseTimestamp timestamp <;> simp [exec, h]

def settling (env : Env) (db : Db) (msg : Message) (sourceId destinationId : String) (status : Status) (add : Bool)
    (finish : Nat → Db → Int → β) : Option β :=
  if msg.sourceId = "" then none
  else (db.findNewest env sourceId destinationId status).bind fun id =>
    (db.adjustInventory msg.sourceId (extractQuantities msg.items.items) add env.now).bind fun db₁ =>
      (env.parseTimestamp msg.timestamp).bind fun ts => some (finish id db₁ ts)

theorem settling_eq_some
    {finish : Nat → Db → Int → β} {r : β} : settling env db msg sourceId destinationId status add finish = some r ↔
      msg.sourceId ≠ "" ∧ ∃ id d ts, db.findNewest env sourceId destinationId status = some id ∧
        db.adjustInventory msg.sourceId (extractQuantities msg.items.items) add env.now = some d ∧
        env.parseTimestamp msg.timestamp = some ts ∧ finish id d ts = r := by
  rw [settling]
  split
  · next h => simp [h]
  · next h =>
    simp only [bind_eq_some_iff, Option.some.injEq, ne_eq, h, not_false_eq_true, true_and]
    constructor
    · rintro ⟨id, hf, d, ha, ts, hts, he⟩
      exact ⟨id, d, ts, hf, ha, hts, he⟩
    · rintro ⟨id, d, ts, hf, ha, hts, he⟩
      exact ⟨id, hf, d, ha, ts, hts, he⟩

theorem commits_handleReceiptConfirmation : commits env (handleReceiptConfirmation msg) db =
    settling env db msg "" msg.sourceId .dispatched true fun id d ts => (0, d.setCompleted id ts) := by
  rw [handleReceiptConfirmation, settling]
  simp only [commits_exec, exec, bind_some]
  cases db.findNewest env "" msg.sourceId .dispatched with
  | none => simp [commits_exec, exec]
  | some id => simp [commits_adjustClientInventory, commits_updateCompleted]

theorem commits_handleDispatchConfirmation : commits env (handleDispatchConfirmation msg) db =
    settling env db msg msg.sourceId "" .assigned false fun id d ts => ((0, some id), d.setDispatched id ts) := by
  rw [handleDispatchConfirmation, settling]
  simp only [commits_exec, exec, bind_some]
  cases db.findNewest env msg.sourceId "" .assigned with
  | none => simp [commits_exec, exec]
  | some id => simp [commits_adjustClientInventory, commits_updateDispatched]

theorem exists_setDispatched {id : Nat} {ts : Int} (ht : db.transactions.find? id = some t) :
    (db.setDispatched id ts).transactions.find? id =
      some { t with status := .dispatched, dispatchTimestamp := some ts } := by
  rw [Db.setDispatched, Db.updateTransaction, Table.find?_update, if_pos rfl, ht]
  rfl

theorem adjustInventory_transactions {now : Int} {db₁ : Db} (h : db.adjustInventory clientId q add now = some db₁) :
    db₁.transactions = db.transactions ∧ db₁.nextId = db.nextId := by
  rw [Db.adjustInventory] at h
  split at h
  · cases h
    exact ⟨rfl, rfl⟩
  · cases h

def shipmentResult (msg : Message) (id : Nat) (hubId : String) : StockRequestResult :=
  ⟨some id, true, true, msg.sourceId, hubId, itemsOf (positiveItems (extractQuantities msg.items.items)),
    (positiveItems (extractQuantities msg.items.items)).length⟩

theorem commits_handleShipmentNotice : commits env (handleShipmentNotice msg) db =
    settling env db msg msg.sourceId "" .assigned false fun id d ts =>
      (shipmentResult msg id ((db.transactions.find? id).elim "" TransactionRow.destinationId),
        d.setDispatched id ts) := by
  rw [handleShipmentNotice, settling]
  simp only [commits_exec, exec, bind_some]
  cases hf : db.findNewest env msg.sourceId "" .assigned with
  | none =>
    simp only [commits_exec, exec, bind_some]
    cases db.findNewest env msg.sourceId "" .dispatched with
    | some id => simp
    | none =>
      simp only [commits_exec, exec, bind_some]
      cases db.findNewest env msg.sourceId "" .completed <;> simp
  | some id =>
    obtain ⟨t, ht, rfl, -⟩ := findNewest_eq_some hf
    simp only [commits_adjustClientInventory, bind_some]
    split
    · rfl
    · refine bind_congr fun db₁ hdb₁ => ?_
      have hrow : db.transactions.find? t.transactionId = some t := Table.find?_eq_some.mpr ⟨ht, rfl⟩
      simp only [ne_eq, not_true_eq_false, if_false, commits_updateDispatched]
      refine bind_congr fun ts _ => ?_
      rw [commits_exec]
      simp only [exec, bind_some, hrow]
      rw [exists_setDispatched (t := t) (by rw [(adjustInventory_transactions hdb₁).1, hrow])]
      rfl

theorem commits_assign (id : Nat) (clientId clientType : String) (thrown₁ thrown₂ : α) (k : Work α) :
    commits env (.exec (.updateSource id clientId clientType) thrown₁ fun _ =>
      .exec (.updateAssigned id) thrown₂ fun _ => k) db = commits env k (db.assign id clientId clientType) := by
  rw [← Db.setAssigned_setSource]
  rfl

theorem commits_createTransaction {transactionType : TransactionType} {destinationType : String}
    {orderTimestamp : String} {thrown : α} {k : Option Nat → Work α} :
    commits env (createTransaction transactionType destinationId destinationType q orderTimestamp thrown k) db =
      if destinationId = "" ∨ destinationType = "" then commits env (k none) db
      else (env.parseTimestamp orderTimestamp).bind fun ts => commits env (k (some db.nextId))
        (db.insertTransaction transactionType destinationId destinationType q ts) := by
  rw [createTransaction]
  split
  · rfl
  · rw [commits_exec]
    cases h : env.parseTimestamp orderTimestamp <;> simp [exec, h]

def replenishRow (msg : Message) (ts : Int) (id : Nat) : TransactionRow :=
  ⟨id, .replenish, none, none, msg.sourceId, msg.sourceRole, .dispatched, extractQuantities msg.items.items, ts,
    some ts, none⟩

theorem commits_handleReplenishRequest : commits env (handleReplenishRequest msg) db =
    if msg.sourceId = "" ∨ msg.sourceRole = "" then none else (env.parseTimestamp msg.timestamp).bind fun ts =>
      some (⟨some db.nextId, true, true, msg.sourceId, "", msg.items.items, itemCount msg.items.items⟩,
        db.insertRow (replenishRow msg ts) fun _ => rfl) := by
  rw [handleReplenishRequest, commits_createTransaction]
  split
  · rfl
  · simp only [commits_updateDispatched]
    cases env.parseTimestamp msg.timestamp with
    | none => rfl
    | some ts =>
      simp only [bind_some, Db.insertTransaction, Db.setDispatched]
      rw [Db.updateTransaction_insertRow]
      rfl

def requestResult (msg : Message) (id : Nat) (warehouseId : Option String) : StockRequestResult :=
  ⟨some id, true, warehouseId.isSome, warehouseId.getD "", msg.sourceId, msg.items.items, itemCount msg.items.items⟩

def requestRow (msg : Message) (ts : Int) (warehouseId : Option String) (id : Nat) : TransactionRow :=
  ⟨id, .stockRequest, warehouseId, warehouseId.map fun _ => warehouse, msg.sourceId, msg.sourceRole,
    if warehouseId.isSome then .assigned else .pending, extractQuantities msg.items.items, ts, none, none⟩

theorem commits_handleStockRequest : commits env (handleStockRequest msg) db =
    if msg.sourceId = "" ∨ msg.sourceRole = "" then none
    else (db.adjustInventory msg.sourceId (extractQuantities msg.items.items) false env.now).bind fun db₁ =>
      (env.parseTimestamp msg.timestamp).bind fun ts =>
        let found := (db₁.pickByStock env warehouse (extractQuantities msg.items.items)).filter (· ≠ "")
        some (requestResult msg db.nextId found, db₁.insertRow (requestRow msg ts found) fun _ => rfl) := by
  rw [handleStockRequest, commits_adjustClientInventory]
  by_cases hs : msg.sourceId = ""
  · simp [hs, commits_createTransaction]
  by_cases hr : msg.sourceRole = ""
  · cases db.adjustInventory msg.sourceId (extractQuantities msg.items.items) false env.now <;>
      simp [hs, hr, commits_createTransaction]
  rw [if_neg hs, if_neg (by simp [hs, hr])]
  refine bind_congr fun db₁ hdb₁ => ?_
  rw [commits_createTransaction, if_neg (by simp [hs, hr])]
  refine bind_congr fun ts _ => ?_
  have hid := (adjustInventory_transactions hdb₁).2
  rw [commits_exec]
  simp only [exec, bind_some]
  have hpick : (db₁.insertTransaction .stockRequest msg.sourceId msg.sourceRole
      (extractQuantities msg.items.items) ts).pickByStock env warehouse (extractQuantities msg.items.items) =
      db₁.pickByStock env warehouse (extractQuantities msg.items.items) := rfl
  rw [hpick]
  cases db₁.pickByStock env warehouse (extractQuantities msg.items.items) with
  | none =>
    simp only [commits_commit, hid]
    rfl
  | some w =>
    by_cases hw : w = ""
    · simp only [hw, if_true, commits_commit, hid]
      rfl
    · have hfilter : (some w).filter (· ≠ "") = some w := by simp [Option.filter, hw]
      simp only [hw, if_false, commits_assign, Db.insertTransaction, Db.assign, hfilter]
      rw [Db.updateTransaction_insertRow, hid]
      rfl

theorem commits_handleStockRequest_eq_some {r : StockRequestResult}
    (hc : commits env (handleStockRequest msg) db = some (r, db')) : msg.sourceId ≠ "" ∧ msg.sourceRole ≠ "" ∧
    ∃ d ts found, db.adjustInventory msg.sourceId (extractQuantities msg.items.items) false env.now = some d ∧
    env.parseTimestamp msg.timestamp = some ts ∧
    (d.pickByStock env warehouse (extractQuantities msg.items.items)).filter (· ≠ "") = found ∧ r =
    requestResult msg db.nextId found ∧ db' = d.insertRow (requestRow msg ts found) fun _ => rfl := by
  rw [commits_handleStockRequest] at hc
  split at hc
  · cases hc
  · next hne =>
    simp only [bind_eq_some_iff] at hc
    obtain ⟨d, ha, ts, hts, he⟩ := hc
    cases he
    exact ⟨fun h => hne (.inl h), fun h => hne (.inr h), d, ts, _, ha, hts, rfl, rfl, rfl⟩

end Logistics.InventorySpec
