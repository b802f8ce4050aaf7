import Logistics.Idempotence

namespace Logistics.HandlerAtomicity

open TransactionProgram JsonManager Database InventoryManager InventorySpec Idempotence

variable {env : Env} {msg : Message} {db db' : Db} {a : Attempt}

inductive Handler
  | stockRequest
  | replenishRequest
  | receiptConfirmation
  | dispatchConfirmation
  | shipmentNotice

def Handler.report (a : Attempt) (msg : Message) (db : Db) : Handler → Bool × Db
  | .stockRequest => ((perform a (handleStockRequest msg) db).map StockRequestResult.success id)
  | .replenishRequest => ((perform a (handleReplenishRequest msg) db).map StockRequestResult.success id)
  | .receiptConfirmation => ((perform a (handleReceiptConfirmation msg) db).map (fun rc => rc = 0) id)
  | .dispatchConfirmation => ((perform a (handleDispatchConfirmation msg) db).map (fun r => r.1 = 0) id)
  | .shipmentNotice => ((perform a (handleShipmentNotice msg) db).map StockRequestResult.success id)

def Open (db : Db) (sourceId destinationId : String) (status : Status) : Prop :=
  ∃ t ∈ db.transactions.rows, isMatch sourceId destinationId status t

def Handler.Duplicate (msg : Message) (db : Db) : Handler → Prop
  | .stockRequest | .replenishRequest => False
  | .receiptConfirmation => ¬ Open db "" msg.sourceId .dispatched ∧ Open db "" msg.sourceId .completed
  | .dispatchConfirmation => ¬ Open db msg.sourceId "" .assigned ∧ Open db msg.sourceId "" .dispatched
  | .shipmentNotice => ¬ Open db msg.sourceId "" .assigned ∧
      (Open db msg.sourceId "" .dispatched ∨ Open db msg.sourceId "" .completed)

def Settled (env : Env) (msg : Message) (sourceId destinationId : String) (status : Status) (add : Bool)
    (settle : Db → Nat → Int → Db) (db db' : Db) : Prop :=
  ∃ id d ts, db.findNewest env sourceId destinationId status = some id ∧
    db.adjustInventory msg.sourceId (extractQuantities msg.items.items) add env.now = some d ∧
    env.parseTimestamp msg.timestamp = some ts ∧ db' = settle d id ts

def Handler.Updates (env : Env) (msg : Message) (db db' : Db) : Handler → Prop
  | .stockRequest => ∃ d ts,
      db.adjustInventory msg.sourceId (extractQuantities msg.items.items) false env.now = some d ∧
      env.parseTimestamp msg.timestamp = some ts ∧
      db' = d.insertRow (requestRow msg ts
        ((d.pickByStock env warehouse (extractQuantities msg.items.items)).filter (· ≠ ""))) fun _ => rfl
  | .replenishRequest => ∃ ts, env.parseTimestamp msg.timestamp = some ts ∧
      db' = db.insertRow (replenishRow msg ts) fun _ => rfl
  | .receiptConfirmation => Settled env msg "" msg.sourceId .dispatched true Db.setCompleted db db'
  | .dispatchConfirmation | .shipmentNotice => Settled env msg msg.sourceId "" .assigned false Db.setDispatched db db'

structure Handler.Atomic (a : Attempt) (msg : Message) (db : Db) (h : Handler) : Prop where
  failure : (h.report a msg db).1 = false → SameTables db (h.report a msg db).2
  duplicate : h.Duplicate msg db → SameTables db (h.report a msg db).2
  success : (h.report a msg db).1 = true → ¬ h.Duplicate msg db → h.Updates a.env msg db (h.report a msg db).2

variable {destinationId sourceId : String} {status : Status} {q : Quantities} {add : Bool}

section Exits

variable {α : Type} {P Q : α → Prop} {thrown : α}

theorem exits_adjustClientInventory {clientId : String} {k : Int → Work α}
    (ht : P thrown) (hk : ∀ rc d, (k rc).Exits (exec env) P Q d) :
    (adjustClientInventory clientId q add thrown k).Exits (exec env) P Q db := by
  rw [adjustClientInventory]
  split
  · exact hk _ _
  · exact ⟨ht, fun _ d _ => hk _ d⟩

variable {k : Option Nat → Work α}

theorem exits_createTransaction {transactionType : TransactionType} {destinationType : String}
    {orderTimestamp : String} (ht : P thrown) (hk : ∀ created d, (k created).Exits (exec env) P Q d) :
    (createTransaction transactionType destinationId destinationType q orderTimestamp thrown k).Exits (exec env) P Q
      db := by
  rw [createTransaction]
  split
  · exact hk _ _
  · exact ⟨ht, fun _ d _ => hk _ d⟩

theorem exits_selectTransactionId
    (ht : P thrown) (hk : (k (db.findNewest env sourceId destinationId status)).Exits (exec env) P Q db) :
    Prog.Exits (exec env) P Q (.exec (.selectTransactionId sourceId destinationId status) thrown k) db := by
  refine ⟨ht, fun r d h => ?_⟩
  cases h
  exact hk

end Exits

theorem exits_handleStockRequest : (handleStockRequest msg).Exits (exec env)
    (fun r => r.success = true → Handler.stockRequest.Duplicate msg db) (fun r => r.success = true) db := by
  simp only [handleStockRequest]
  refine exits_adjustClientInventory Bool.false_ne_true fun _ d =>
    exits_createTransaction Bool.false_ne_true fun created d => ?_
  cases created with
  | none => exact Bool.false_ne_true
  | some id =>
    refine ⟨Bool.false_ne_true, fun found d _ => ?_⟩
    cases found with
    | none => exact ⟨rfl, Bool.false_ne_true⟩
    | some w =>
      by_cases hw : w = ""
      · simp only [hw, if_true]
        exact ⟨rfl, Bool.false_ne_true⟩
      · simp only [hw, if_false]
        exact ⟨Bool.false_ne_true, fun _ _ _ => ⟨Bool.false_ne_true, fun _ _ _ => ⟨rfl, Bool.false_ne_true⟩⟩⟩

theorem exits_handleReplenishRequest : (handleReplenishRequest msg).Exits (exec env)
    (fun r => r.success = true → Handler.replenishRequest.Duplicate msg db) (fun r => r.success = true) db := by
  rw [handleReplenishRequest]
  refine exits_createTransaction Bool.false_ne_true fun created d => ?_
  cases created with
  | none => exact Bool.false_ne_true
  | some id => exact ⟨Bool.false_ne_true, fun _ _ _ => ⟨rfl, Bool.false_ne_true⟩⟩

theorem isSome_findNewest (env : Env) :
    (db.findNewest env sourceId destinationId status).isSome ↔ Open db sourceId destinationId status := by
  rw [Option.isSome_iff_ne_none]
  exact findNewest_ne_none

theorem not_open_of_none
    (h : db.findNewest env sourceId destinationId status = none) : ¬ Open db sourceId destinationId status := by
  rw [← isSome_findNewest env, h]
  exact Bool.false_ne_true

theorem exits_settling {α : Type} {P Q : α → Prop} {refused : α}
    {update : Work α} (hr : P refused) (hu : ∀ d, update.Exits (exec env) P Q d) :
    (adjustClientInventory msg.sourceId q add refused fun rc => if rc ≠ 0 then .rollback refused else update).Exits
      (exec env) P Q db := by
  refine exits_adjustClientInventory hr fun rc d => ?_
  by_cases hrc : rc = 0
  · rw [if_neg (by simp [hrc])]
    exact hu d
  · rw [if_pos hrc]
    exact hr

theorem exits_handleReceiptConfirmation : (handleReceiptConfirmation msg).Exits (exec env)
    (fun rc => decide (rc = 0) = true → Handler.receiptConfirmation.Duplicate msg db) (fun rc => decide (rc = 0) = true)
    db := by
  refine exits_selectTransactionId (by simp) ?_
  cases hf : db.findNewest env "" msg.sourceId .dispatched with
  | none =>
    refine exits_selectTransactionId (by simp) fun h => ⟨not_open_of_none hf, (isSome_findNewest env).mp ?_⟩
    by_contra hn
    rw [if_neg hn] at h
    exact absurd h (by decide)
  | some id => exact exits_settling (by simp) fun _ => ⟨by simp, fun _ _ _ => ⟨rfl, by simp⟩⟩

theorem exits_handleDispatchConfirmation : (handleDispatchConfirmation msg).Exits (exec env)
    (fun r => decide (r.1 = 0) = true → Handler.dispatchConfirmation.Duplicate msg db)
    (fun r => decide (r.1 = 0) = true) db := by
  refine exits_selectTransactionId (by simp) ?_
  cases hf : db.findNewest env msg.sourceId "" .assigned with
  | none =>
    refine exits_selectTransactionId (by simp) fun h => ⟨not_open_of_none hf, (isSome_findNewest env).mp ?_⟩
    by_contra hn
    rw [if_neg hn] at h
    exact absurd h (by decide)
  | some id => exact exits_settling (by simp) fun _ => ⟨by simp, fun _ _ _ => ⟨rfl, by simp⟩⟩

theorem exits_handleShipmentNotice : (handleShipmentNotice msg).Exits (exec env)
    (fun r => r.success = true → Handler.shipmentNotice.Duplicate msg db) (fun r => r.success = true) db := by
  refine exits_selectTransactionId (by simp [emptyResult]) ?_
  cases hf : db.findNewest env msg.sourceId "" .assigned with
  | none =>
    refine exits_selectTransactionId (by simp [emptyResult]) ?_
    cases hd : db.findNewest env msg.sourceId "" .dispatched with
    | some id => exact fun _ => ⟨not_open_of_none hf, .inl ((isSome_findNewest env).mp (by rw [hd]; rfl))⟩
    | none =>
      refine exits_selectTransactionId (by simp [emptyResult]) ?_
      cases hc : db.findNewest env msg.sourceId "" .completed with
      | some id => exact fun _ => ⟨not_open_of_none hf, .inr ((isSome_findNewest env).mp (by rw [hc]; rfl))⟩
      | none => exact fun h => absurd h Bool.false_ne_true
  | some id =>
    refine exits_settling (by simp [emptyResult]) fun _ =>
      ⟨by simp [emptyResult], fun _ _ _ => ⟨by simp [emptyResult], fun record _ _ => ?_⟩⟩
    cases record <;> exact ⟨rfl, by simp [emptyResult]⟩

theorem settled_of_commits {β : Type} {settle : Db → Nat → Int → Db} (result : Nat → β) {r : β}
    (h : settling env db msg sourceId destinationId status add (fun id d ts => (result id, settle d id ts)) =
      some (r, db')) :
    Open db sourceId destinationId status ∧ Settled env msg sourceId destinationId status add settle db db' := by
  obtain ⟨-, id, d, ts, hf, ha, hts, he⟩ := settling_eq_some.mp h
  cases he
  exact ⟨(isSome_findNewest env).mp (by rw [hf]; rfl), id, d, ts, hf, ha, hts, rfl⟩

/-- What is left to show of a handler: that it has made all its updates when it
commits, and that it does not take its duplicate path then. -/
theorem Handler.Atomic.of_exits {α : Type} {h : Handler} {work : Work α} {ok : α → Bool}
    (hr : h.report a msg db = (ok (perform a work db).1, (perform a work db).2))
    (hw : work.Exits (exec a.env) (fun r => ok r = true → h.Duplicate msg db) (fun r => ok r = true) db)
    (hc : ∀ r db', commits a.env work db = some (r, db') → ¬ h.Duplicate msg db ∧ h.Updates a.env msg db db') :
    h.Atomic a msg db := by
  have hok : (h.report a msg db).1 = ok (perform a work db).1 := congrArg Prod.fst hr
  have hdb : (h.report a msg db).2 = (perform a work db).2 := congrArg Prod.snd hr
  rcases perform_exits hw with ⟨hp, w, hundo⟩ | ⟨hq, hcommit⟩
  · have hsame : SameTables db (h.report a msg db).2 := by
      rw [hdb, hundo]
      exact ⟨rfl, rfl⟩
    exact ⟨fun _ => hsame, fun _ => hsame, fun h hd => absurd (hp (hok ▸ h)) hd⟩
  · obtain ⟨hd, hu⟩ := hc _ _ hcommit
    refine ⟨fun h => ?_, fun h => absurd h hd, fun _ _ => by rw [hdb]; exact hu⟩
    exact absurd (h.symm.trans (hok.trans hq)) Bool.false_ne_true

/-- On every message and database and for every failing statement or commit. -/
theorem handler_atomic (h : Handler) (a : Attempt) (msg : Message) (db : Db) : h.Atomic a msg db := by
  cases h with
  | stockRequest =>
    refine .of_exits rfl exits_handleStockRequest fun r db' hc => ⟨id, ?_⟩
    obtain ⟨-, -, d, ts, _, ha, hts, rfl, -, rfl⟩ := commits_handleStockRequest_eq_some hc
    exact ⟨d, ts, ha, hts, rfl⟩
  | replenishRequest =>
    refine .of_exits rfl exits_handleReplenishRequest fun r db' hc => ⟨id, ?_⟩
    rw [commits_handleReplenishRequest] at hc
    split at hc
    · cases hc
    · obtain ⟨ts, hts, he⟩ := Option.bind_eq_some_iff.mp hc
      cases he
      exact ⟨ts, hts, rfl⟩
  | receiptConfirmation =>
    refine .of_exits ?_ exits_handleReceiptConfirmation fun r db' hc => ?_
    · rfl
    · rw [commits_handleReceiptConfirmation] at hc
      obtain ⟨ho, hs⟩ := settled_of_commits (fun _ => 0) hc
      exact ⟨fun h => h.1 ho, hs⟩
  | dispatchConfirmation =>
    refine .of_exits ?_ exits_handleDispatchConfirmation fun r db' hc => ?_
    · rfl
    · rw [commits_handleDispatchConfirmation] at hc
      obtain ⟨ho, hs⟩ := settled_of_commits (fun id => (0, some id)) hc
      exact ⟨fun h => h.1 ho, hs⟩
  | shipmentNotice =>
    refine .of_exits rfl exits_handleShipmentNotice fun r db' hc => ?_
    rw [commits_handleShipmentNotice] at hc
    obtain ⟨ho, hs⟩ := settled_of_commits _ hc
    exact ⟨fun h => h.1 ho, hs⟩

end Logistics.HandlerAtomicity
