import Logistics.DecimalText
import Logistics.InventorySpec
import Logistics.RowVersions
import Logistics.Scenario

namespace Logistics.MqttClient

open KeyedTable DecimalText Database InventoryManager
open TransactionProgram (Prog)

def deliveryDestinations : List String :=
  ["Mercado Sur", "Mercado Norte", "FCEFyN", "Plaza Espana", "Patio Olmos", "Nueva Cordoba", "Alto Alberdi", "Guemes",
    "San Vicente", "Centro", "Cerro Campanas", "Chateau Carreras", "Villa Belgrano", "Arguello", "La Calera"]

structure Courier where
  employeeId : String
  pendingStops : List String

inductive Payload
  | invalid
  | missingStop
  | stop (text : String)

/-- The courier registry next to the database. `outstanding` is not in the
source: it holds each courier with the transactions that have been assigned to it
and that it has not reported since. -/
structure State where
  db : Db
  couriers : Table Courier.employeeId
  rrIndex : Nat
  outstanding : List (String × Nat)

def stopText (dest : String) (transactionId : Nat) : String := dest ++ " " ++ toString transactionId

/-- The trailing number of a stop. None stands for a text without a blank, an
exception of `std::stoi` and a negative number alike: all three end the handler. -/
def stopTransaction (stop : String) : Option Nat :=
  (afterLastBlank stop.toList).bind fun word => (stoi word).bind fun id => if id < 0 then none else some id.toNat

def completeTransaction (transactionId : Nat) (receptionTimestamp : String) : Work Int :=
  .exec (.updateCompleted transactionId receptionTimestamp) (-1) fun _ => .commit 0 (-1)

def handleTracking (employeeId : String) (s : State) : State :=
  match s.couriers.find? employeeId with
  | some _ => s
  | none => { s with couriers := s.couriers.put ⟨employeeId, []⟩ }

def inMapOrder (rank : String → Nat) (couriers : List Courier) : List Courier :=
  couriers.insertionSort fun a b => rank a.employeeId ≤ rank b.employeeId

/-- The result is the topic and payload that are published, or none when there
is no courier; `dest` is the random index. -/
def assignRoute (rank : String → Nat) (dest transactionId : Nat) (s : State) : Option (String × String) × State :=
  match (inMapOrder rank s.couriers.rows)[s.rrIndex % s.couriers.rows.length]? with
  | none => (none, s)
  | some courier =>
    let stop := stopText (deliveryDestinations.getD (dest % deliveryDestinations.length) "") transactionId
    (some ("routes/" ++ courier.employeeId, "[\"" ++ stop ++ "\"]"),
      { s with
        couriers := s.couriers.update courier.employeeId
          (fun c => { c with pendingStops := c.pendingStops ++ [stop] }) fun _ => rfl
        rrIndex := s.rrIndex + 1
        outstanding := s.outstanding ++ [(courier.employeeId, transactionId)] })

def handleDelivered (a : Attempt) (stamp employeeId : String) (payload : Payload) (s : State) : State :=
  match payload with
  | .invalid | .missingStop => s
  | .stop text =>
    match stopTransaction text with
    | none => s
    | some id =>
      { s with
        db := (perform a (completeTransaction id stamp) s.db).2
        couriers := s.couriers.update employeeId
          (fun c => { c with pendingStops := c.pendingStops.filter (· ≠ text) }) fun _ => rfl
        outstanding := s.outstanding.filter (· ≠ (employeeId, id)) }

def topicId (start topic : String) : Option String :=
  if start.toList <+: topic.toList then some (String.ofList (topic.toList.drop start.length)) else none

def handleMessage (a : Attempt) (stamp topic : String) (payload : Payload) (s : State) : State :=
  match topicId "tracking/" topic with
  | some employeeId => handleTracking employeeId s
  | none =>
    match topicId "delivered/" topic with
    | some employeeId => handleDelivered a stamp employeeId payload s
    | none => s

open JsonManager MessageHandler Scenario

variable {a : Attempt} {stamp employeeId topic : String} {payload : Payload} {s : State} {db : Db}
  {t t' : TransactionRow} {id : Nat}

inductive Event
  | message (a : Attempt) (stamp topic : String) (payload : Payload)
  | route (rank : String → Nat) (dest transactionId : Nat)
  | handler (o : Oracle) (sessionId : String) (msg : Message) (command : ApiGateway.Command)

def Event.apply : Event → State → State
  | .message a stamp topic payload, s => handleMessage a stamp topic payload s
  | .route rank dest transactionId, s => (assignRoute rank dest transactionId s).2
  | .handler o sessionId msg command, s => { s with db := (handleOtherMessage o sessionId msg command s.db).2 }

/-- From `db` to `db'` a status changes only from DISPATCHED to COMPLETED, and
only if the transaction is outstanding for the courier. -/
def RespectsLifecycle (outstanding : List (String × Nat)) (employeeId : String) (db db' : Db) : Prop :=
  ∀ t ∈ db.transactions.rows, ∀ t' ∈ db'.transactions.rows, t'.transactionId = t.transactionId →
    t'.status ≠ t.status →
      t.status = .dispatched ∧ t'.status = .completed ∧ (employeeId, t.transactionId) ∈ outstanding

def Event.Respects (s : State) : Event → Prop
  | .message a stamp topic payload => ∀ employeeId ∈ topicId "delivered/" topic,
      RespectsLifecycle s.outstanding employeeId s.db (handleMessage a stamp topic payload s).db
  | .route .. | .handler .. => True

def Payload.transactionId : Payload → Option Nat
  | .invalid | .missingStop => none
  | .stop text => stopTransaction text

def Completes (a : Attempt) (stamp : String) : Prop :=
  a.fault ≠ some 0 ∧ a.fault ≠ some 1 ∧ a.env.parseTimestamp stamp ≠ none

/-- A report names a transaction that is COMPLETED already, or one that is
DISPATCHED and outstanding for this courier, unless the UPDATE fails. -/
def Event.Meets (s : State) : Event → Prop
  | .message a stamp topic payload => Completes a stamp → ∀ employeeId ∈ topicId "delivered/" topic,
      ∀ id ∈ payload.transactionId, ∀ t ∈ s.db.transactions.find? id,
        t.status = .completed ∨ t.status = .dispatched ∧ (employeeId, id) ∈ s.outstanding
  | .route .. | .handler .. => True

def Along (P : State → Event → Prop) : State → List Event → Prop
  | _, [] => True
  | s, e :: rest => P s e ∧ Along P (e.apply s) rest

theorem completeTransaction_completes (h : Completes a stamp) (id : Nat) (db : Db) :
    ∃ ts, (perform a (completeTransaction id stamp) db).2 = db.setCompleted id ts := by
  obtain ⟨h₀, h₁, hts⟩ := h
  obtain ⟨ts, hts⟩ := Option.ne_none_iff_exists'.mp hts
  match hf : a.fault with
  | none | some (_ + 2) => simp [perform, completeTransaction, Prog.run, hf, exec, hts]
  | some 0 => exact absurd hf h₀
  | some 1 => exact absurd hf h₁

theorem completeTransaction_fails (h : ¬ Completes a stamp) (id : Nat) (db : Db) :
    (perform a (completeTransaction id stamp) db).2.transactions = db.transactions := by
  match hf : a.fault with
  | some 0 => simp [perform, completeTransaction, Prog.run, hf, Db.undo]
  | some 1 =>
    cases hts : a.env.parseTimestamp stamp <;>
      simp [perform, completeTransaction, Prog.run, hf, exec, hts, Db.undo]
  | none | some (_ + 2) =>
    have hts : a.env.parseTimestamp stamp = none := by
      by_contra hne
      exact h ⟨by simp [hf], by simp [hf], hne⟩
    simp [perform, completeTransaction, Prog.run, hf, exec, hts, Db.undo]

theorem topicId_delivered (h : topicId "delivered/" topic = some employeeId) : topicId "tracking/" topic = none := by
  rw [topicId] at h
  split at h
  · next hpre =>
    rw [topicId, if_neg]
    intro hpre'
    obtain ⟨rest, hrest⟩ := hpre
    obtain ⟨rest', hrest'⟩ := hpre'
    rw [← hrest] at hrest'
    cases hrest'
  · cases h

theorem handleMessage_delivered (h : topicId "delivered/" topic = some employeeId) :
    handleMessage a stamp topic payload s = handleDelivered a stamp employeeId payload s := by
  rw [handleMessage, topicId_delivered h]
  simp only [h]

theorem handleDelivered_db (a : Attempt) (stamp employeeId : String) (payload : Payload) (s : State) :
    (handleDelivered a stamp employeeId payload s).db =
      payload.transactionId.elim s.db fun id => (perform a (completeTransaction id stamp) s.db).2 := by
  cases payload with
  | invalid | missingStop => rfl
  | stop text =>
    simp only [handleDelivered, Payload.transactionId]
    cases stopTransaction text <;> rfl

variable {outstanding : List (String × Nat)}

theorem respectsLifecycle_same {db' : Db}
    (h : db'.transactions = db.transactions) : RespectsLifecycle outstanding employeeId db db' := by
  intro t ht t' ht' hid hne
  rw [h] at ht'
  exact absurd (by rw [db.transactions.unique ht' ht hid]) hne

theorem respectsLifecycle_setCompleted (id : Nat) (ts : Int) :
    RespectsLifecycle outstanding employeeId db (db.setCompleted id ts) ↔ ∀ t ∈ db.transactions.find? id, t.status =
    .completed ∨ t.status = .dispatched ∧ (employeeId, id) ∈ outstanding := by
  constructor
  · intro h t ht
    obtain ⟨hmem, rfl⟩ := Table.find?_eq_some.mp ht
    by_cases hst : t.status = .completed
    · exact .inl hst
    · right
      obtain ⟨hd, -, ho⟩ := h t hmem { t with status := .completed, receptionTimestamp := some ts }
        (mem_updateRows.mpr (.inr ⟨t, hmem, rfl, rfl⟩)) rfl (Ne.symm hst)
      exact ⟨hd, ho⟩
  · intro h t ht t' ht' hid hne
    rcases mem_updateRows.mp ht' with ⟨ht'', -⟩ | ⟨u, hu, rfl, rfl⟩
    · exact absurd (by rw [db.transactions.unique ht'' ht hid]) hne
    · cases db.transactions.unique hu ht hid
      rcases h t (Table.find?_eq_some.mpr ⟨ht, rfl⟩) with hst | ⟨hst, ho⟩
      · exact absurd hst.symm hne
      · exact ⟨hst, rfl, ho⟩

theorem respects_iff (e : Event) (s : State) : e.Respects s ↔ e.Meets s := by
  cases e with
  | message a stamp topic payload =>
    simp only [Event.Respects, Event.Meets]
    by_cases hc : Completes a stamp
    · rw [forall_prop_of_true hc]
      refine forall_congr' fun employeeId => forall_congr' fun h => ?_
      rw [handleMessage_delivered h, handleDelivered_db]
      cases hid : payload.transactionId with
      | none => simpa using respectsLifecycle_same rfl
      | some id =>
        obtain ⟨ts, hts⟩ := completeTransaction_completes hc id s.db
        rw [Option.elim_some, hts, respectsLifecycle_setCompleted]
        simp
    · refine iff_of_true (fun employeeId h => ?_) fun h => absurd h hc
      rw [handleMessage_delivered h, handleDelivered_db]
      cases payload.transactionId with
      | none => exact respectsLifecycle_same rfl
      | some id => exact respectsLifecycle_same (completeTransaction_fails hc id s.db)
  | route | handler => exact Iff.rfl

/-- In every run, the couriers' reports respect the lifecycle exactly when each
of them names a transaction that it may report. -/
theorem deliveries_respect_lifecycle_iff (s : State) (es : List Event) :
    Along (fun s e => e.Respects s) s es ↔ Along (fun s e => e.Meets s) s es := by
  induction es generalizing s with
  | nil => exact Iff.rfl
  | cons e rest ih => exact and_congr (respects_iff e s) (ih _)

def undispatched : State :=
  ⟨handled (itemsMessage .hubToServerStockRequest hub "hub_1" "2026-01-01" (oneItem 1 5)) emptyDb, .empty, 0, []⟩

theorem delivery_completes_pending : ¬ Along (fun s e => e.Respects s) undispatched
      [.message ⟨plainEnv, none⟩ "2026-01-02" "delivered/courier_1" (.stop "Centro 1")] := by
  intro h
  have hmeets := (respects_iff _ _).mp h.1 ⟨by simp, by simp, by decide⟩ "courier_1" (by decide) 1 (by decide)
  revert hmeets
  decide

end Logistics.MqttClient
