import Logistics.MessageHandler
import Logistics.PendingSpec
import Logistics.Reachability

namespace Logistics.Lifecycle

open KeyedTable JsonManager Database InventorySpec List

variable {env : Env} {msg : Message} {db db' : Db}

def stage : Status → Nat
  | .pending => 0
  | .assigned => 1
  | .dispatched => 2
  | .completed => 3

structure Advances (t t' : TransactionRow) : Prop where
  id : t'.transactionId = t.transactionId
  type : t'.transactionType = t.transactionType
  destination : t'.destinationId = t.destinationId ∧ t'.destinationType = t.destinationType
  quantities : t'.quantities = t.quantities
  forward : stage t.status ≤ stage t'.status
  final : t.status = .completed → t' = t

theorem Advances.refl (t : TransactionRow) : Advances t t := ⟨rfl, rfl, ⟨rfl, rfl⟩, rfl, le_rfl, fun _ => rfl⟩

theorem Advances.trans {t u v : TransactionRow} (h : Advances t u) (h' : Advances u v) : Advances t v where
  id := h'.id.trans h.id
  type := h'.type.trans h.type
  destination := ⟨h'.destination.1.trans h.destination.1, h'.destination.2.trans h.destination.2⟩
  quantities := h'.quantities.trans h.quantities
  forward := h.forward.trans h'.forward
  final hc := by
    have hu := h.final hc
    rw [h'.final (by rw [hu, hc]), hu]

def Created (t : TransactionRow) : Prop :=
  match t.transactionType with
  | .replenish => t.status = .dispatched
  | .stockRequest | .orderDispatch => t.status = .pending ∨ t.status = .assigned

def SourceLaw (t : TransactionRow) : Prop :=
  t.transactionType ≠ .replenish → ((t.sourceId = none ∨ t.sourceId = some "") ↔ t.status = .pending)

structure Evolves (db db' : Db) : Prop where
  advances : ∀ t ∈ db.transactions.rows, ∃ t' ∈ db'.transactions.rows, Advances t t'
  created : ∀ t' ∈ db'.transactions.rows,
    (∃ t ∈ db.transactions.rows, t.transactionId = t'.transactionId) ∨ Created t'

def Quiet (db db' : Db) : Prop :=
  ∀ t' ∈ db'.transactions.rows, ∃ t ∈ db.transactions.rows, t.transactionId = t'.transactionId

structure Sound (db : Db) : Prop where
  source : ∀ t ∈ db.transactions.rows, SourceLaw t
  named : ∀ r ∈ db.inventory.rows, r.clientId ≠ ""

theorem Evolves.of_eq (h : db'.transactions = db.transactions) : Evolves db db' := by
  refine ⟨fun t ht => ⟨t, by rwa [h], .refl t⟩, fun t ht => .inl ⟨t, by rwa [← h], rfl⟩⟩

theorem Quiet.of_eq (h : db'.transactions = db.transactions) : Quiet db db' :=
  fun t ht => ⟨t, by rwa [← h], rfl⟩

theorem Quiet.trans {d : Db} (h : Quiet db d) (h' : Quiet d db') : Quiet db db' := by
  intro t ht
  obtain ⟨u, hu, he⟩ := h' t ht
  obtain ⟨v, hv, he'⟩ := h u hu
  exact ⟨v, hv, he'.trans he⟩

theorem Evolves.comp {d : Db} (h : Evolves db d) (hq : Quiet db d) (h' : Evolves d db') : Evolves db db' := by
  refine ⟨fun t ht => ?_, fun t ht => ?_⟩
  · obtain ⟨u, hu, ha⟩ := h.advances t ht
    obtain ⟨v, hv, hb⟩ := h'.advances u hu
    exact ⟨v, hv, ha.trans hb⟩
  · rcases h'.created t ht with ⟨u, hu, he⟩ | hc
    · obtain ⟨v, hv, he'⟩ := hq u hu
      exact .inl ⟨v, hv, he'.trans he⟩
    · exact .inr hc

section Update

variable {id : Nat} {f : TransactionRow → TransactionRow} {hf : ∀ t, (f t).transactionId = t.transactionId}

theorem quiet_updateTransaction : Quiet db (db.updateTransaction id f hf) := by
  intro t ht
  rcases mem_updateRows.mp ht with ⟨ht, _⟩ | ⟨r, hr, _, rfl⟩
  · exact ⟨t, ht, rfl⟩
  · exact ⟨r, hr, (hf r).symm⟩

theorem evolves_updateTransaction (h : ∀ t ∈ db.transactions.rows, t.transactionId = id → Advances t (f t)) :
    Evolves db (db.updateTransaction id f hf) := by
  refine ⟨fun t ht => ?_, fun t ht => .inl (quiet_updateTransaction t ht)⟩
  by_cases hid : t.transactionId = id
  · exact ⟨f t, mem_updateRows.mpr (.inr ⟨t, ht, hid, rfl⟩), h t ht hid⟩
  · exact ⟨t, mem_updateRows.mpr (.inl ⟨ht, hid⟩), .refl t⟩

theorem Sound.updateTransaction (hs : Sound db) (h : ∀ t ∈ db.transactions.rows, t.transactionId = id → SourceLaw (f t))
    : Sound (db.updateTransaction id f hf) := by
  refine ⟨fun t ht => ?_, hs.named⟩
  rcases mem_updateRows.mp ht with ⟨ht, _⟩ | ⟨r, hr, hid, rfl⟩
  · exact hs.source t ht
  · exact h r hr hid

end Update

section Insert

variable {row : Nat → TransactionRow} {hrow : ∀ id, (row id).transactionId = id}

theorem evolves_insertRow (h : Created (row db.nextId)) : Evolves db (db.insertRow row hrow) := by
  refine ⟨fun t ht => ⟨t, mem_append_left _ ht, .refl t⟩, fun t ht => ?_⟩
  rcases mem_append.mp ht with ht | ht
  · exact .inl ⟨t, ht, rfl⟩
  · rw [mem_singleton.mp ht]
    exact .inr h

theorem Sound.insertRow (hs : Sound db) (h : SourceLaw (row db.nextId)) : Sound (db.insertRow row hrow) := by
  refine ⟨fun t ht => ?_, hs.named⟩
  rcases mem_append.mp ht with ht | ht
  · exact hs.source t ht
  · rw [mem_singleton.mp ht]
    exact h

end Insert

theorem Sound.of_tables (hs : Sound db) (ht : db'.transactions = db.transactions)
    (hi : ∀ r ∈ db'.inventory.rows, r.clientId ≠ "") : Sound db' :=
  ⟨fun t h => hs.source t (by rwa [← ht]), hi⟩

theorem adjustInventory_named {clientId : String} {q : Quantities} {add : Bool} {now : Int}
    (h : db.adjustInventory clientId q add now = some db') (hs : Sound db) : Sound db' := by
  refine hs.of_tables (adjustInventory_transactions h).1 fun r hr => ?_
  unfold Db.adjustInventory at h
  split at h
  · cases h
    rcases mem_updateRows.mp hr with ⟨hr, _⟩ | ⟨s, hs', _, rfl⟩
    · exact hs.named r hr
    · exact hs.named s hs'
  · cases h

theorem upsertInventory_named {row : InventoryRow} (hrow : row.clientId ≠ "") (hs : Sound db) :
    Sound (db.upsertInventory row) := by
  refine hs.of_tables rfl fun r hr => ?_
  simp only [Db.upsertInventory, Table.put] at hr
  split at hr
  · rcases mem_updateRows.mp hr with ⟨hr, _⟩ | ⟨s, hs', he, rfl⟩
    · exact hs.named r hr
    · simpa [he] using hrow
  · rcases mem_append.mp hr with hr | hr
    · exact hs.named r hr
    · rw [mem_singleton.mp hr]
      exact hrow

open InventoryManager PendingSpec

variable {a : Attempt}

structure Grows (db db' : Db) : Prop where
  sound : Sound db'
  evolves : Evolves db db'

structure Steady (db db' : Db) : Prop extends Grows db db' where
  quiet : Quiet db db'

theorem Steady.of_eq (hs : Sound db') (h : db'.transactions = db.transactions) : Steady db db' :=
  ⟨⟨hs, .of_eq h⟩, .of_eq h⟩

theorem Steady.undo (hs : Sound db) (w : Db) : Steady db (db.undo w) := .of_eq ⟨hs.source, hs.named⟩ rfl

variable {d : Db}

theorem Steady.trans_grows (h : Steady db d) (h' : Grows d db') : Grows db db' :=
  ⟨h'.sound, h.evolves.comp h.quiet h'.evolves⟩

theorem Steady.trans (h : Steady db d) (h' : Steady d db') : Steady db db' :=
  ⟨h.trans_grows h'.toGrows, h.quiet.trans h'.quiet⟩

variable {id : Nat} {f : TransactionRow → TransactionRow}

theorem steady_updateTransaction (hs : Sound db) {hf : ∀ t, (f t).transactionId = t.transactionId}
    (h : ∀ t ∈ db.transactions.rows, t.transactionId = id → Advances t (f t) ∧ SourceLaw (f t)) :
    Steady db (db.updateTransaction id f hf) :=
  ⟨⟨hs.updateTransaction fun t ht he => (h t ht he).2, evolves_updateTransaction fun t ht he => (h t ht he).1⟩,
    quiet_updateTransaction⟩

variable {status : Status} {destinationId sourceId : String}

theorem found_status (h : db.findNewest env sourceId destinationId status = some id) {t : TransactionRow}
    (ht : t ∈ db.transactions.rows) (he : t.transactionId = id) : t.status = status := by
  obtain ⟨u, hu, hid, hm, -⟩ := findNewest_eq_some h
  rw [db.transactions.unique ht hu (he.trans hid.symm)]
  exact hm.2.2

theorem steady_leave (hs : Sound db) {hf : ∀ t, (f t).transactionId = t.transactionId} (hp : status ≠ .pending)
    (hc : status ≠ .completed) (h : ∀ t ∈ db.transactions.rows, t.transactionId = id → t.status = status)
    (hkeep : ∀ t, (f t).transactionType = t.transactionType ∧ (f t).sourceId = t.sourceId ∧
      (f t).destinationId = t.destinationId ∧ (f t).destinationType = t.destinationType ∧
      (f t).quantities = t.quantities) (hto : ∀ t, stage status ≤ stage (f t).status ∧ (f t).status ≠ .pending) :
    Steady db (db.updateTransaction id f hf) := by
  refine steady_updateTransaction hs fun t ht he => ?_
  obtain ⟨htype, hsource, hdest, hdestType, hq⟩ := hkeep t
  refine ⟨⟨hf t, htype, ⟨hdest, hdestType⟩, hq, ?_, fun hcomp => ?_⟩, fun hne => ?_⟩
  · rw [h t ht he]
    exact (hto t).1
  · exact absurd ((h t ht he).symm.trans hcomp) hc
  · have hlaw := hs.source t ht (by rwa [← htype])
    rw [h t ht he] at hlaw
    rw [hsource]
    exact hlaw.trans (iff_of_false hp (hto t).2)

theorem steady_setDispatched (hs : Sound db) (ts : Int)
    (h : ∀ t ∈ db.transactions.rows, t.transactionId = id → t.status = .assigned) :
    Steady db (db.setDispatched id ts) :=
  steady_leave hs (by decide) (by decide) h (fun _ => ⟨rfl, rfl, rfl, rfl, rfl⟩) fun _ => ⟨by simp [stage], by simp⟩

theorem steady_setCompleted (hs : Sound db) (ts : Int)
    (h : ∀ t ∈ db.transactions.rows, t.transactionId = id → t.status = .dispatched) :
    Steady db (db.setCompleted id ts) :=
  steady_leave hs (by decide) (by decide) h (fun _ => ⟨rfl, rfl, rfl, rfl, rfl⟩) fun _ => ⟨by simp [stage], by simp⟩

variable {clientId : String}

theorem steady_assign (hs : Sound db) {clientType : String} (hne : clientId ≠ "")
    (h : ∀ t ∈ db.transactions.rows, t.transactionId = id → t.status = .pending ∨ t.status = .assigned) :
    Steady db (db.assign id clientId clientType) := by
  refine steady_updateTransaction hs fun t ht he => ⟨⟨rfl, rfl, ⟨rfl, rfl⟩, rfl, ?_, ?_⟩, ?_⟩
  · rcases h t ht he with hst | hst <;> simp [hst, stage]
  · rcases h t ht he with hst | hst <;> simp [hst]
  · intro _
    simp [hne]

theorem steady_assignEach (hs : Sound db) {hubId : String} (hne : hubId ≠ "") (orders : List TransactionRow)
    (h : ∀ o ∈ orders, ∀ t ∈ db.transactions.rows, t.transactionId = o.transactionId →
      t.status = .pending ∨ t.status = .assigned) : Steady db (assignEach db hubId orders) := by
  induction orders generalizing db with
  | nil => exact .of_eq hs rfl
  | cons o rest ih =>
    have ho : Steady db (db.assign o.transactionId hubId hub) := steady_assign hs hne (h o mem_cons_self)
    refine ho.trans (ih ho.sound fun o' ho' t ht he => ?_)
    rcases mem_updateRows.mp ht with ⟨ht, _⟩ | ⟨u, _, _, rfl⟩
    · exact h o' (mem_cons_of_mem _ ho') t ht he
    · exact .inr rfl

theorem steady_ensureInventory (hs : Sound db) (hne : clientId ≠ "") (now : Int)
    (clientType : String) : Steady db (ensureInventory db now clientId clientType).2 := by
  rw [ensureInventory]
  split
  · exact .of_eq hs rfl
  · exact .of_eq (upsertInventory_named hne hs) rfl

theorem steady_storeInventory (hs : Sound db) : Steady db (perform a (storeInventory msg) db).2 := by
  refine perform_induct a _ db (.undo hs) fun r db' hc => ?_
  rw [commits_storeInventory] at hc
  split at hc
  · cases hc
    exact .of_eq hs rfl
  · next hne =>
    obtain ⟨ts, -, he⟩ := Option.map_eq_some_iff.mp hc
    cases he
    exact .of_eq (upsertInventory_named (by simp at hne; exact hne.1) hs) rfl

theorem steady_settling {α : Type} {work : Work α} {add : Bool} {finish : Nat → Db → Int → α × Db} (hs : Sound db)
    (hspec : commits a.env work db = settling a.env db msg sourceId destinationId status add finish)
    (hfinish : ∀ id d ts, Sound d → (∀ t ∈ d.transactions.rows, t.transactionId = id → t.status = status) →
      Steady d (finish id d ts).2) : Steady db (perform a work db).2 := by
  refine perform_induct a _ db (.undo hs) fun r db' hc => ?_
  rw [hspec, settling_eq_some] at hc
  obtain ⟨-, id, d, ts, hf, ha, -, he⟩ := hc
  have hd := adjustInventory_named ha hs
  have hlast := hfinish id d ts hd fun t ht he =>
    found_status hf ((adjustInventory_transactions ha).1 ▸ ht) he
  rw [he] at hlast
  exact (Steady.of_eq hd (adjustInventory_transactions ha).1).trans hlast

theorem steady_handleReceiptConfirmation (hs : Sound db) : Steady db (perform a (handleReceiptConfirmation msg) db).2 :=
  steady_settling hs commits_handleReceiptConfirmation fun _ _ ts hd hfound => steady_setCompleted hd ts hfound

theorem steady_handleDispatchConfirmation (hs : Sound db) :
    Steady db (perform a (handleDispatchConfirmation msg) db).2 :=
  steady_settling hs commits_handleDispatchConfirmation fun _ _ ts hd hfound => steady_setDispatched hd ts hfound

theorem steady_handleShipmentNotice (hs : Sound db) : Steady db (perform a (handleShipmentNotice msg) db).2 :=
  steady_settling hs commits_handleShipmentNotice fun _ _ ts hd hfound => steady_setDispatched hd ts hfound

theorem grows_handleStockRequest (hs : Sound db) : Grows db (perform a (handleStockRequest msg) db).2 := by
  refine perform_induct a _ db (fun w => (Steady.undo hs w).toGrows) fun r db' hc => ?_
  obtain ⟨-, -, d, ts, found, ha, -, hfound, -, rfl⟩ := commits_handleStockRequest_eq_some hc
  have hd := adjustInventory_named ha hs
  apply (Steady.of_eq hd (adjustInventory_transactions ha).1).trans_grows
  cases found with
  | none => exact ⟨hd.insertRow (by simp [SourceLaw, requestRow]), evolves_insertRow (.inl rfl)⟩
  | some w =>
    have hne : w ≠ "" := by simpa using (Option.filter_eq_some_iff.mp hfound).2
    exact ⟨hd.insertRow (by simp [SourceLaw, requestRow, hne]), evolves_insertRow (.inr rfl)⟩

theorem grows_handleReplenishRequest (hs : Sound db) : Grows db (perform a (handleReplenishRequest msg) db).2 := by
  refine perform_induct a _ db (fun w => (Steady.undo hs w).toGrows) fun r db' hc => ?_
  rw [commits_handleReplenishRequest] at hc
  split at hc
  · cases hc
  · obtain ⟨ts, -, he⟩ := Option.bind_eq_some_iff.mp hc
    cases he
    exact ⟨hs.insertRow (by simp [SourceLaw, replenishRow]), evolves_insertRow rfl⟩

theorem steady_processPendingOrders (hs : Sound db) (warehouseId : String) :
    Steady db (perform a (processPendingOrders warehouseId) db).2 := by
  refine perform_induct a _ db (.undo hs) fun r db' hc => ?_
  obtain ⟨hw, hrest⟩ := commits_processPendingOrders_eq_some hc
  have hens := steady_ensureInventory hs hw a.env.now warehouse
  split at hrest
  · rw [hrest.2]
    exact hens
  · next t hfit =>
    rw [hrest.2]
    apply hens.trans
    apply steady_assign hens.sound hw
    intro u hu he
    exact .inl (pending_unique (mem_of_find?_eq_some hfit) (ensureInventory_transactions ..) hu he)

theorem steady_processPendingGatewayOrders (hs : Sound db) (hubId : String) :
    Steady db (perform a (processPendingGatewayOrders hubId) db).2 := by
  refine perform_induct a _ db (.undo hs) fun r db' hc => ?_
  obtain ⟨hh, rfl⟩ := commits_processPendingGatewayOrders_eq_some hc
  have hens := steady_ensureInventory hs hh a.env.now hub
  apply hens.trans
  apply steady_assignEach hens.sound hh
  intro o ho u hu he
  exact .inl (pending_unique (greedy_subset _ _ ho) (ensureInventory_transactions ..) hu he)

end Logistics.Lifecycle
