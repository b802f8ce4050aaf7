import Logistics.PendingSpec

namespace Logistics.OrderCommits

open TransactionProgram JsonManager Database InventoryManager InventorySpec PendingSpec List

variable {env : Env} {db d w : Db} {a : Attempt} {work : Work (List StockRequestResult)}
  {old new orders : List StockRequestResult} {clientId clientType : String}

/-- From the state `w` the program runs `lead` statements and then collects the
results `new` one after the other, with two statements for each, on top of the
`old` ones. What it has collected is also what it returns when a later statement
or the commit fails. -/
def Collects (env : Env) (lead : Nat) (work : Work (List StockRequestResult)) (w : Db)
    (old new : List StockRequestResult) (d : Db) : Prop :=
  ∀ base fault,
    (∀ f, fault = some f → f ≤ lead + 2 * new.length →
      ∃ w', work.run (exec env) Db.undo base fault w = (old ++ new.take ((f - lead) / 2), base.undo w')) ∧
    ((∀ f, fault = some f → lead + 2 * new.length < f) → work.run (exec env) Db.undo base fault w = (old ++ new, d))

theorem collects_commit (w : Db) (old : List StockRequestResult) : Collects env 0 (.commit old old) w old [] w := by
  intro base fault
  constructor
  · rintro f rfl hf
    obtain rfl : f = 0 := by simpa using hf
    exact ⟨w, by simp [Prog.run]⟩
  · intro hf
    rcases fault with _ | _ | _
    · simp [Prog.run]
    · exact absurd (hf 0 rfl) (by simp)
    · simp [Prog.run]

variable {lead : Nat}

theorem Collects.exec {s : Stmt} {k : s.Res → Work (List StockRequestResult)} {r : s.Res} {w' : Db}
    (hs : exec env s w = some (r, w')) (h : Collects env lead (k r) w' old new d) :
    Collects env (lead + 1) (.exec s old k) w old new d := by
  intro base fault
  match fault with
  | none => exact ⟨by simp, fun _ => by simpa [Prog.run, hs] using (h base none).2 (by simp)⟩
  | some 0 =>
    refine ⟨fun f hf _ => ?_, fun hf => absurd (hf 0 rfl) (by simp)⟩
    cases hf
    exact ⟨w, by simp [Prog.run]⟩
  | some (n + 1) =>
    obtain ⟨hlate, hdone⟩ := h base (some n)
    constructor
    · intro f hf hle
      cases hf
      obtain ⟨w'', hw''⟩ := hlate n rfl (by omega)
      refine ⟨w'', ?_⟩
      simpa [Prog.run, hs] using hw''
    · intro hf
      have hlt := hf _ rfl
      simpa [Prog.run, hs] using hdone fun f he => by cases he; omega

theorem Collects.assign {id : Nat} {r : StockRequestResult}
    (h : Collects env 0 work (w.assign id clientId clientType) (old ++ [r]) new d) :
    Collects env 0 (.exec (.updateSource id clientId clientType) old fun _ =>
      .exec (.updateAssigned id) old fun _ => work) w old (r :: new) d := by
  rw [← Db.setAssigned_setSource] at h
  intro base fault
  match fault with
  | none => exact ⟨by simp, fun _ => by simpa [Prog.run, Database.exec] using (h base none).2 (by simp)⟩
  | some 0 =>
    refine ⟨fun f hf _ => ?_, fun hf => absurd (hf 0 rfl) (by simp)⟩
    cases hf
    exact ⟨w, by simp [Prog.run]⟩
  | some 1 =>
    refine ⟨fun f hf _ => ?_, fun hf => absurd (hf 1 rfl) (by simp)⟩
    cases hf
    exact ⟨w.setSource id clientId clientType, by simp [Prog.run, Database.exec]⟩
  | some (n + 2) =>
    obtain ⟨hlate, hdone⟩ := h base (some n)
    constructor
    · rintro f hf hle
      cases hf
      obtain ⟨w', hw'⟩ := hlate n rfl (by rw [length_cons] at hle; omega)
      refine ⟨w', ?_⟩
      simpa [Prog.run, Database.exec] using hw'
    · intro hf
      have hlt := hf _ rfl
      rw [length_cons] at hlt
      simpa [Prog.run, Database.exec] using hdone fun f he => by cases he; omega

theorem collects_assignFirst (warehouseId : String) (stock : Quantities) (pending : List TransactionRow) :
    Collects env 0 (assignFirst warehouseId stock pending) w [] ((firstFit stock pending).toList.map fun t =>
        orderResult t.transactionId true warehouseId t.destinationId t.quantities)
      ((firstFit stock pending).elim w fun t => w.assign t.transactionId warehouseId warehouse) := by
  induction pending with
  | nil => exact collects_commit w []
  | cons t rest ih =>
    rw [assignFirst]
    by_cases ht : t.transactionType = .orderDispatch
    · rw [if_pos ht, firstFit, find?_cons_of_neg (by simp [ht])]
      exact ih
    · rw [if_neg ht]
      by_cases hc : canFulfill t.quantities stock
      · rw [if_pos hc, firstFit, find?_cons_of_pos (by simp [ht, hc])]
        exact (collects_commit _ _).assign
      · rw [if_neg hc, firstFit, find?_cons_of_neg (by simp [hc])]
        exact ih

theorem collects_assignAll (hubId : String) (pending : List TransactionRow) (stock : Quantities)
    (old : List StockRequestResult) : Collects env 0 (assignAll hubId pending stock old)
    w old ((greedy stock pending).map fun t => orderResult t.transactionId false hubId hubId t.quantities)
    (assignEach w hubId (greedy stock pending)) := by
  induction pending generalizing w stock old with
  | nil => exact collects_commit w old
  | cons t rest ih =>
    rw [assignAll, greedy]
    by_cases ht : t.transactionType = .orderDispatch
    · by_cases hc : canFulfill t.quantities stock
      · rw [if_neg (by simp [ht]), if_pos hc, if_pos ⟨ht, hc⟩]
        exact (ih _ _).assign
      · rw [if_neg (by simp [ht]), if_neg hc, if_neg (by simp [hc])]
        exact ih stock old
    · rw [if_pos ht, if_neg (by simp [ht])]
      exact ih stock old

def pendingPass (clientId clientType : String)
    (assign : Quantities → List TransactionRow → Work (List StockRequestResult)) : Work (List StockRequestResult) :=
  getClientInventory clientId clientType [] fun stock =>
    match stock with
    | none => .rollback []
    | some stock =>
      getPendingTransactions [] fun pending => if pending = [] then .rollback [] else assign stock pending

theorem processPendingOrders_eq (warehouseId : String) :
    processPendingOrders warehouseId = pendingPass warehouseId warehouse (assignFirst warehouseId) := rfl

theorem processPendingGatewayOrders_eq (hubId : String) :
    processPendingGatewayOrders hubId = pendingPass hubId hub fun stock pending => assignAll hubId pending stock [] :=
  rfl

def leadStatements (db : Db) (clientId : String) : Nat := if (db.inventory.find? clientId).isSome then 2 else 3

variable {assign : Quantities → List TransactionRow → Work (List StockRequestResult)}

theorem collects_pendingPass (hid : clientId ≠ "") (htype : clientType ≠ "") (hbatch : pendingBatch env db ≠ [])
    (hc : Collects env 0 (assign (ensureInventory db env.now clientId clientType).1 (pendingBatch env db))
      (ensureInventory db env.now clientId clientType).2 [] orders d) :
    Collects env (leadStatements db clientId) (pendingPass clientId clientType assign) db [] orders d := by
  have hselect (stock : Quantities) (w : Db) (hw : pendingBatch env w = pendingBatch env db)
      (hc : Collects env 0 (assign stock (pendingBatch env db)) w [] orders d) :
      Collects env 1 (getPendingTransactions [] fun pending =>
        if pending = [] then .rollback [] else assign stock pending) w [] orders d := by
    refine Collects.exec rfl ?_
    change Collects env 0 (if pendingBatch env w = [] then _ else assign stock (pendingBatch env w)) w [] orders d
    rwa [hw, if_neg hbatch]
  have hensure : pendingBatch env (ensureInventory db env.now clientId clientType).2 = pendingBatch env db :=
    pendingBatch_ensureInventory env.now clientId clientType
  rw [pendingPass, getClientInventory, if_neg (by simp [hid, htype]), leadStatements]
  cases hrow : db.inventory.find? clientId with
  | some r =>
    have he : ensureInventory db env.now clientId clientType = (r.stock, db) := by rw [ensureInventory, hrow]
    rw [he] at hc
    have hfound : exec env (.selectInventory clientId) db = some (some r.stock, db) := by simp [exec, hrow]
    exact Collects.exec hfound (hselect r.stock db rfl hc)
  | none =>
    have he : ensureInventory db env.now clientId clientType = (fun _ => initialStock clientType,
        db.upsertInventory ⟨clientId, clientType, fun _ => initialStock clientType, env.now⟩) := by
      rw [ensureInventory, hrow]
    rw [he] at hc hensure
    have hmissing : exec env (.selectInventory clientId) db = some (none, db) := by simp [exec, hrow]
    refine Collects.exec hmissing (Collects.exec (r := ()) ?_ (hselect _ _ hensure hc))
    simp only [exec]
    rw [insertInventory_eq hrow]
    rfl

theorem pendingPass_none (h : clientId = "" ∨ pendingBatch a.env db = []) :
    (perform a (pendingPass clientId clientType assign) db).1 = [] := by
  have hexits : (pendingPass clientId clientType assign).Exits (exec a.env) (· = []) (fun _ => False) db := by
    rw [pendingPass, getClientInventory]
    split
    · rfl
    · next hne =>
      have hbatch : pendingBatch a.env db = [] := h.resolve_left fun hid => hne (.inl hid)
      have hselect (stock : Quantities) (w : Db) (hw : pendingBatch a.env w = []) :
          (getPendingTransactions [] fun pending =>
            if pending = [] then .rollback [] else assign stock pending).Exits (exec a.env) (· = [])
            (fun _ => False) w := by
        refine ⟨rfl, fun r w' hs => ?_⟩
        cases hs
        change Prog.Exits _ _ _ (if pendingBatch a.env w = [] then _ else _) w
        rw [if_pos hw]
        rfl
      refine ⟨rfl, fun found w hs => ?_⟩
      cases hs
      cases hrow : db.inventory.find? clientId with
      | some r => exact hselect r.stock db hbatch
      | none =>
        refine ⟨rfl, fun _ w hs => hselect _ w ?_⟩
        simp only [exec] at hs
        rw [insertInventory_eq hrow] at hs
        cases hs
        exact hbatch
  rcases perform_exits hexits with ⟨hp, -⟩ | ⟨hq, -⟩
  · exact hp
  · exact hq.elim

def Committed (db : Db) (id : Nat) (clientId : String) : Prop :=
  ∃ t ∈ db.transactions.rows, t.transactionId = id ∧ t.status = .assigned ∧ t.sourceId = some clientId

def OrdersCommitted (clientId : String) (fulfilled : List StockRequestResult × Db) : Prop :=
  ∀ r ∈ fulfilled.1, ∃ id, r.transactionId = some id ∧ Committed fulfilled.2 id clientId

/-- A statement or the commit of a pass fails once it has collected at least one
of the `n` orders that it comes to. -/
def FailsLate (fault : Option Nat) (lead n : Nat) : Prop := ∃ f, fault = some f ∧ lead + 2 ≤ f ∧ f ≤ lead + 2 * n

theorem ordersCommitted_iff (h : Collects a.env lead work db [] orders d)
    (hbefore : ∀ r ∈ orders, ∀ id, r.transactionId = some id → ¬ Committed db id clientId)
    (hafter : OrdersCommitted clientId (orders, d)) :
    OrdersCommitted clientId (perform a work db) ↔ ¬ FailsLate a.fault lead orders.length := by
  obtain ⟨hlate, hdone⟩ := h db a.fault
  by_cases hf : ∃ f, a.fault = some f ∧ f ≤ lead + 2 * orders.length
  · obtain ⟨f, hfault, hle⟩ := hf
    obtain ⟨w', hrun⟩ := hlate f hfault hle
    rw [perform, hrun]
    constructor
    · rintro hall ⟨g, hg, hlow, -⟩
      obtain rfl : f = g := Option.some.inj (hfault.symm.trans hg)
      cases orders with
      | nil => simp at hle; omega
      | cons r rest =>
        have hpos : 0 < (f - lead) / 2 := by omega
        obtain ⟨id, hid, hc⟩ := hall r (mem_take_iff_getElem.mpr ⟨0, by simp [hpos], rfl⟩)
        exact hbefore r mem_cons_self id hid hc
    · intro hnot r hr
      have hzero : (f - lead) / 2 = 0 := by
        by_contra hne
        exact hnot ⟨f, hfault, by omega, hle⟩
      rw [hzero] at hr
      cases hr
  · have hrun := hdone fun f hfault => by
      by_contra hlt
      exact hf ⟨f, hfault, by omega⟩
    rw [perform, hrun]
    refine iff_of_true hafter ?_
    rintro ⟨f, hfault, -, hle⟩
    exact hf ⟨f, hfault, hle⟩

theorem Collects.subset (h : Collects a.env lead work db [] orders d) : (perform a work db).1 ⊆ orders := by
  obtain ⟨hlate, hdone⟩ := h db a.fault
  by_cases hf : ∃ f, a.fault = some f ∧ f ≤ lead + 2 * orders.length
  · obtain ⟨f, hfault, hle⟩ := hf
    obtain ⟨w', hrun⟩ := hlate f hfault hle
    rw [perform, hrun]
    exact take_subset _ _
  · have hrun := hdone fun f hfault => by
      by_contra hlt
      exact hf ⟨f, hfault, by omega⟩
    rw [perform, hrun]
    exact Subset.refl _

structure TakesOn (env : Env) (db : Db) (clientId clientType : String)
    (assign : Quantities → List TransactionRow → Work (List StockRequestResult)) (rows : List TransactionRow)
    (result : TransactionRow → StockRequestResult) (d : Db) : Prop where
  type_ne : clientType ≠ ""
  none : clientId = "" → rows = []
  pending : rows ⊆ pendingBatch env db
  names : ∀ t, (result t).transactionId = some t.transactionId
  collects : clientId ≠ "" → Collects env 0 (assign (ensureInventory db env.now clientId clientType).1 (pendingBatch env db))
    (ensureInventory db env.now clientId clientType).2 [] (rows.map result) d
  assigned : ∀ t ∈ rows, assignedTo clientId clientType t ∈ d.transactions.rows

variable {rows : List TransactionRow} {result : TransactionRow → StockRequestResult}

theorem TakesOn.ordersCommitted_iff (h : TakesOn a.env db clientId clientType assign rows result d) :
    OrdersCommitted clientId (perform a (pendingPass clientId clientType assign) db) ↔
      ¬ FailsLate a.fault (leadStatements db clientId) rows.length := by
  by_cases hnone : clientId = "" ∨ pendingBatch a.env db = []
  · have hrows : rows = [] := hnone.elim h.none fun hb => subset_nil.mp (hb ▸ h.pending)
    constructor
    · rintro - ⟨f, -, hlow, hle⟩
      rw [hrows] at hle
      simp only [length_nil] at hle
      omega
    · intro _ r hr
      rw [pendingPass_none hnone] at hr
      cases hr
  · rw [not_or] at hnone
    rw [← length_map result]
    refine OrderCommits.ordersCommitted_iff (collects_pendingPass hnone.1 h.type_ne hnone.2 (h.collects hnone.1)) ?_ ?_
    · rintro r hr id hid ⟨t, ht, rfl, hst, -⟩
      obtain ⟨o, ho, rfl⟩ := mem_map.mp hr
      rw [h.names] at hid
      have hpending := pending_unique (h.pending ho) rfl ht (Option.some.inj hid).symm
      rw [hpending] at hst
      cases hst
    · intro r hr
      obtain ⟨o, ho, rfl⟩ := mem_map.mp hr
      exact ⟨_, h.names o, _, h.assigned o ho, rfl, rfl, rfl⟩

theorem TakesOn.subset (h : TakesOn a.env db clientId clientType assign rows result d) :
    (perform a (pendingPass clientId clientType assign) db).1 ⊆ rows.map result := by
  by_cases hnone : clientId = "" ∨ pendingBatch a.env db = []
  · rw [pendingPass_none hnone]
    exact nil_subset _
  · rw [not_or] at hnone
    exact (collects_pendingPass hnone.1 h.type_ne hnone.2 (h.collects hnone.1)).subset

end Logistics.OrderCommits
