import Logistics.GatewayOrders
import Logistics.ShipmentFrames

namespace Logistics.Gateway

open InventoryManager Database ApiGateway Shipments Function

section

/-- The messages of the fanout exchange. A confirmation also has the user whose
dispatch command it comes from, which the source does not send. -/
inductive QueueMessage
  | createShipment (request : PreparedRequest)
  | dispatchConfirmed (caller shipmentId transactionId : String)

structure DispatchCommand where
  caller : String
  shipmentId : String

structure Call where
  number : Nat
  caller : String
  request : ShipmentRequest

inductive Task
  | idle
  | registered (request : PreparedRequest)
  | unpublished (request : PreparedRequest)
  | permitted (command : DispatchCommand)
  | looked (caller : String) (record : TrackedShipment)
  | waiting (caller : String) (record : TrackedShipment) (number : Nat)
  | answered (caller : String) (record : TrackedShipment) (transactionId : String)
  | recorded (caller shipmentId transactionId : String)

/-- The replicas of the gateway with the queues between them and the core. `sent` and
`orders` are all commands sent and all orders created so far. -/
structure System (ι θ : Type) where
  replica : ι → Dispatcher
  fanout : ι → List QueueMessage
  shared : List DispatchCommand
  task : ι × θ → Task
  flight : List Call
  replies : List (Nat × Reply)
  sent : List Call
  orders : List (Call × Nat)

inductive Event (ι θ : Type)
  | create (p : ι × θ) (caller : String) (body : Option ShipmentRequest) (uuid : Uuid) (now : String)
  | dispatch (p : ι × θ) (caller : String) (body : Option String)
  | status (r : ι) (caller identifier : String)
  | cancel (r : ι) (shipmentId caller : String)
  | publish (p : ι × θ) (ok : Bool)
  | discard (p : ι × θ)
  | receive (r : ι) (n : Nat) (acked : Bool) (uuid : Uuid) (now : String)
  | take (p : ι × θ) (n : Nat) (acked : Bool)
  | send (p : ι × θ)
  | execute (n : Nat) (attempt : Nat → Attempt) (connected : Bool) (stamp : String) (db : Db)
  | answer (p : ι × θ) (n : Nat)
  | fail (p : ι × θ)
  | record (p : ι × θ)
  | notice (r : ι) (transactionId : String)

def QueueMessage.action (uuid : Uuid) (now : String) : QueueMessage → Action
  | .createShipment request => .register request.toShipmentRequest uuid now
  | .dispatchConfirmed _ shipmentId transactionId => .confirm shipmentId transactionId

def created (call : Call) : Reply → List (Call × Nat)
  | .order _ id => [(call, id)]
  | _ => []

variable {ι θ : Type} [DecidableEq ι] [DecidableEq θ]

namespace System

def start : System ι θ := ⟨fun _ => .new, fun _ => [], [], fun _ => .idle, [], [], [], []⟩

variable (sys : System ι θ)

def setTask (p : ι × θ) (task : Task) : System ι θ := { sys with task := update sys.task p task }

def act (r : ι) (action : Action) : System ι θ :=
  { sys with replica := update sys.replica r ((sys.replica r).act action) }

def broadcast (message : QueueMessage) : System ι θ := { sys with fanout := fun r => sys.fanout r ++ [message] }

def settle (r : ι) (n : Nat) (acked : Bool) : System ι θ :=
  if acked then { sys with fanout := update sys.fanout r ((sys.fanout r).eraseIdx n) } else sys

def settleShared (n : Nat) (acked : Bool) : System ι θ :=
  if acked then { sys with shared := sys.shared.eraseIdx n } else sys

def enqueue (command : DispatchCommand) : System ι θ := { sys with shared := sys.shared ++ [command] }

def transmit (call : Call) : System ι θ := { sys with flight := sys.flight ++ [call], sent := sys.sent ++ [call] }

def reply (n : Nat) (call : Call) (reply : Reply) : System ι θ :=
  { sys with
    flight := sys.flight.eraseIdx n
    replies := sys.replies ++ [(call.number, reply)]
    orders := sys.orders ++ created call reply }

end System

/-- A step of a goroutine, of the core or of a client, on the database as the core
finds it at that moment; its sequence of transaction ids never goes back. An event
that is not enabled changes nothing. -/
def step (sys : System ι θ) : Event ι θ → System ι θ
  | .create p caller body uuid now =>
    match sys.task p, (Shipments.createShipment (sys.replica p.1) caller body uuid now).1, body with
    | .idle, .ok request, some body =>
      (sys.act p.1 (.register { body with owner := caller } uuid now)).setTask p (.registered request)
    | _, _, _ => sys
  | .dispatch p caller body =>
    match sys.task p, Shipments.dispatch (sys.replica p.1) caller body with
    | .idle, .ok shipmentId => sys.setTask p (.permitted ⟨caller, shipmentId⟩)
    | _, _ => sys
  | .status _ _ _ => sys
  | .cancel r shipmentId caller => sys.act r (.cancel shipmentId caller)
  | .publish p ok =>
    match sys.task p with
    | .registered request =>
      if ok then (sys.broadcast (.createShipment request)).setTask p .idle
      else sys.setTask p (.unpublished request)
    | .permitted command => if ok then (sys.enqueue command).setTask p .idle else sys.setTask p .idle
    | .recorded caller shipmentId transactionId =>
      if ok then (sys.broadcast (.dispatchConfirmed caller shipmentId transactionId)).setTask p .idle
      else sys.setTask p .idle
    | _ => sys
  | .discard p =>
    match sys.task p with
    | .unpublished request => (sys.act p.1 (.delete request.shipmentId)).setTask p .idle
    | _ => sys
  | .receive r n acked uuid now =>
    match (sys.fanout r)[n]? with
    | some message => (sys.act r (message.action uuid now)).settle r n acked
    | none => sys
  | .take p n acked =>
    match sys.task p, sys.shared[n]? with
    | .idle, some command =>
      match (sys.replica p.1).dispatchLookup command.shipmentId with
      | .ok (some record) => (sys.settleShared n acked).setTask p (.looked command.caller record)
      | _ => sys.settleShared n acked
    | _, _ => sys
  | .send p =>
    match sys.task p with
    | .looked caller record =>
      (sys.transmit ⟨sys.sent.length, caller, record.request⟩).setTask p (.waiting caller record sys.sent.length)
    | _ => sys
  | .execute n attempt connected stamp db =>
    match sys.flight[n]? with
    | some call =>
      if ∀ order ∈ sys.orders, order.2 < db.nextId then
        sys.reply n call
          (cmdCreateShipment attempt connected stamp (some (commandItems call.request.items)) db).1
      else sys
    | none => sys
  | .answer p n =>
    match sys.task p, sys.replies[n]? with
    | .waiting caller record number, some reply =>
      if reply.1 = number then
        match dispatchReply reply.2 with
        | .ok transactionId => sys.setTask p (.answered caller record transactionId)
        | .error _ => sys.setTask p .idle
      else sys
    | _, _ => sys
  | .fail p =>
    match sys.task p with
    | .looked _ _ | .waiting _ _ _ => sys.setTask p .idle
    | _ => sys
  | .record p =>
    match sys.task p with
    | .answered caller record transactionId =>
      (sys.act p.1 (.complete record transactionId)).setTask p (.recorded caller record.shipmentId transactionId)
    | _ => sys
  | .notice r transactionId => sys.act r (.mark transactionId)

end

open TrimSpace

variable {ι θ : Type} {d : Dispatcher}

def Task.sending : Task → Option String
  | .looked _ record => some record.shipmentId
  | _ => none

section Fields

variable (sys : System ι θ) (r : ι) (n : Nat) (acked : Bool)

theorem settleShared_eq : sys.settleShared n acked = { sys with shared := (sys.settleShared n acked).shared } := by
  cases acked <;> rfl

theorem mem_settleShared {command : DispatchCommand} (h : command ∈ (sys.settleShared n acked).shared) :
    command ∈ sys.shared := by
  cases acked with
  | false => exact h
  | true => exact List.mem_of_mem_eraseIdx h

variable [DecidableEq ι]

theorem replica_act (r' : ι) (action : Action) :
    (sys.act r action).replica r' = if r' = r then (sys.replica r).act action else sys.replica r' :=
  update_apply ..

theorem settle_eq : sys.settle r n acked = { sys with fanout := (sys.settle r n acked).fanout } := by
  cases acked <;> rfl

theorem mem_settle {r' : ι} {message : QueueMessage} (h : message ∈ (sys.settle r n acked).fanout r') :
    message ∈ sys.fanout r' := by
  cases acked with
  | false => exact h
  | true =>
    change message ∈ update sys.fanout r _ r' at h
    rw [update_apply] at h
    split at h
    · next heq => exact heq ▸ List.mem_of_mem_eraseIdx h
    · exact h

variable [DecidableEq θ]

theorem task_setTask (p q : ι × θ) (task : Task) :
    (sys.setTask p task).task q = if q = p then task else sys.task q := update_apply ..

theorem forall_task_setTask {sys : System ι θ} {P : ι × θ → Task → Prop} {p : ι × θ} {task : Task} (hp : P p task)
    (h : ∀ q, P q (sys.task q)) (q : ι × θ) : P q ((sys.setTask p task).task q) :=
  (forall_update_iff sys.task P).mpr ⟨hp, fun q _ => h q⟩ q

end Fields

variable [DecidableEq ι] [DecidableEq θ] {sys : System ι θ}

inductive Turn (sys : System ι θ) : Event ι θ → System ι θ → Prop
  | stay (e : Event ι θ) : Turn sys e sys
  | create {p : ι × θ} {caller now : String} {uuid : Uuid} {body : ShipmentRequest} (hidle : sys.task p = .idle) :
      Turn sys (.create p caller (some body) uuid now)
        ((sys.act p.1 (.register { body with owner := caller } uuid now)).setTask p
          (.registered (Dispatcher.prepared { body with owner := caller } uuid)))
  | dispatch {p : ι × θ} {caller shipmentId : String} {record : TrackedShipment} (hidle : sys.task p = .idle)
      (hfound : (sys.replica p.1).lookupShipmentLocked (trimSpace shipmentId) = some record)
      (howner : record.request.owner = caller) :
      Turn sys (.dispatch p caller (some shipmentId)) (sys.setTask p (.permitted ⟨caller, shipmentId⟩))
  | cancel {r : ι} {shipmentId caller : String} :
      Turn sys (.cancel r shipmentId caller) (sys.act r (.cancel shipmentId caller))
  | announce {p : ι × θ} {request : PreparedRequest} (htask : sys.task p = .registered request) :
      Turn sys (.publish p true) ((sys.broadcast (.createShipment request)).setTask p .idle)
  | unpublished {p : ι × θ} {request : PreparedRequest} (htask : sys.task p = .registered request) :
      Turn sys (.publish p false) (sys.setTask p (.unpublished request))
  | enqueue {p : ι × θ} {command : DispatchCommand} (htask : sys.task p = .permitted command) :
      Turn sys (.publish p true) ((sys.enqueue command).setTask p .idle)
  | confirm {p : ι × θ} {caller s t : String} (htask : sys.task p = .recorded caller s t) :
      Turn sys (.publish p true) ((sys.broadcast (.dispatchConfirmed caller s t)).setTask p .idle)
  | drop {e : Event ι θ} {p : ι × θ} : Turn sys e (sys.setTask p .idle)
  | discard {p : ι × θ} {request : PreparedRequest} (htask : sys.task p = .unpublished request) :
      Turn sys (.discard p) ((sys.act p.1 (.delete request.shipmentId)).setTask p .idle)
  | receive {r : ι} {n : Nat} {acked : Bool} {uuid : Uuid} {now : String} {message : QueueMessage}
      (hmessage : (sys.fanout r)[n]? = some message) :
      Turn sys (.receive r n acked uuid now) ((sys.act r (message.action uuid now)).settle r n acked)
  | take {p : ι × θ} {n : Nat} {acked : Bool} {command : DispatchCommand} {record : TrackedShipment}
      (hidle : sys.task p = .idle) (hcommand : sys.shared[n]? = some command)
      (hfound : (sys.replica p.1).lookupShipmentLocked (trimSpace command.shipmentId) = some record)
      (hblank : trimSpace record.transactionId = "") :
      Turn sys (.take p n acked) ((sys.settleShared n acked).setTask p (.looked command.caller record))
  | skip {p : ι × θ} {n : Nat} {acked : Bool} : Turn sys (.take p n acked) (sys.settleShared n acked)
  | send {p : ι × θ} {caller : String} {record : TrackedShipment} (htask : sys.task p = .looked caller record) :
      Turn sys (.send p) ((sys.transmit ⟨sys.sent.length, caller, record.request⟩).setTask p
        (.waiting caller record sys.sent.length))
  | execute {n : Nat} {attempt : Nat → Attempt} {connected : Bool} {stamp : String} {db : Db} {call : Call}
      {reply : Reply} (hcall : sys.flight[n]? = some call)
      (hfresh : ∀ hubId id, reply = .order hubId id → ∀ order ∈ sys.orders, order.2 < id) :
      Turn sys (.execute n attempt connected stamp db) (sys.reply n call reply)
  | answer {p : ι × θ} {n : Nat} {caller : String} {record : TrackedShipment} {number : Nat} {hubId : Option String}
      {id : Nat} (htask : sys.task p = .waiting caller record number)
      (hreply : (number, .order hubId id) ∈ sys.replies) :
      Turn sys (.answer p n) (sys.setTask p (.answered caller record (toString id)))
  | record {p : ι × θ} {caller : String} {record : TrackedShipment} {t : String}
      (htask : sys.task p = .answered caller record t) :
      Turn sys (.record p) ((sys.act p.1 (.complete record t)).setTask p (.recorded caller record.shipmentId t))
  | notice {r : ι} {t : String} : Turn sys (.notice r t) (sys.act r (.mark t))

theorem createShipment_ok {caller now : String} {uuid : Uuid} {body : ShipmentRequest} {request : PreparedRequest}
    (h : (Shipments.createShipment d caller (some body) uuid now).1 = .ok request) :
    request = Dispatcher.prepared { body with owner := caller } uuid := by
  simp only [Shipments.createShipment] at h
  split at h <;> cases h
  rfl

theorem dispatch_ok {caller shipmentId : String} {body : Option String}
    (h : Shipments.dispatch d caller body = .ok shipmentId) : body = some shipmentId ∧ ∃ record,
    d.lookupShipmentLocked (trimSpace shipmentId) = some record ∧ record.request.owner = caller := by
  unfold Shipments.dispatch at h
  split at h
  · cases h
  · split at h
    · cases h
    · split at h
      · cases h
      · next status hstatus =>
        split at h
        · cases h
        · next howner =>
          cases h
          rw [Dispatcher.getShipment] at hstatus
          split at hstatus
          · cases hstatus
          · obtain ⟨record, hrecord, rfl⟩ := Option.map_eq_some_iff.mp hstatus
            exact ⟨rfl, record, hrecord, not_not.mp howner⟩

theorem dispatchLookup_ok {shipmentId : String} {record : TrackedShipment}
    (h : d.dispatchLookup shipmentId = .ok (some record)) :
    d.lookupShipmentLocked (trimSpace shipmentId) = some record ∧ trimSpace record.transactionId = "" := by
  unfold Dispatcher.dispatchLookup at h
  split at h
  · cases h
  · next found hfound =>
    split at h
    · next hblank =>
      cases h
      exact ⟨hfound, hblank⟩
    · cases h

theorem turn_step (sys : System ι θ) (e : Event ι θ) : Turn sys e (step sys e) := by
  cases e with
  | create p caller body uuid now =>
    simp only [step]
    split
    · next request body hidle hok =>
      rw [createShipment_ok hok]
      exact .create hidle
    · exact .stay _
  | dispatch p caller body =>
    simp only [step]
    split
    · next shipmentId hidle hok =>
      obtain ⟨rfl, record, hfound, howner⟩ := dispatch_ok hok
      exact .dispatch hidle hfound howner
    · exact .stay _
  | status r caller identifier => exact .stay _
  | cancel r shipmentId caller => exact .cancel
  | publish p ok =>
    simp only [step]
    split
    · next request htask =>
      cases ok with
      | true => exact .announce htask
      | false => exact .unpublished htask
    · next command htask =>
      cases ok with
      | true => exact .enqueue htask
      | false => exact .drop
    · next caller s t htask =>
      cases ok with
      | true => exact .confirm htask
      | false => exact .drop
    · exact .stay _
  | discard p =>
    simp only [step]
    split
    · next request htask => exact .discard htask
    · exact .stay _
  | receive r n acked uuid now =>
    simp only [step]
    split
    · next message hmessage => exact .receive hmessage
    · exact .stay _
  | take p n acked =>
    simp only [step]
    split
    · next command hidle hcommand =>
      split
      · next record hok =>
        obtain ⟨hfound, hblank⟩ := dispatchLookup_ok hok
        exact .take hidle hcommand hfound hblank
      · exact .skip
    · exact .stay _
  | send p =>
    simp only [step]
    split
    · next caller record htask => exact .send htask
    · exact .stay _
  | execute n attempt connected stamp db =>
    simp only [step]
    split
    · next call hcall =>
      split
      · next hnext =>
        refine .execute hcall fun hubId id heq order horder => ?_
        exact (hnext order horder).trans_le (GatewayOrders.row_of_cmdCreateShipment heq).1
      · exact .stay _
    · exact .stay _
  | answer p n =>
    simp only [step]
    split
    · next caller record number reply htask hreply =>
      split
      · next hnumber =>
        split
        · next t hok =>
          obtain ⟨hubId, id, horder, -, rfl⟩ := GatewayOrders.order_of_dispatchReply hok
          have hmem : (number, .order hubId id) ∈ sys.replies := by
            rw [← hnumber, ← horder]
            exact List.mem_of_getElem? hreply
          exact .answer htask hmem
        · exact .drop
      · exact .stay _
    · exact .stay _
  | fail p =>
    simp only [step]
    split
    · exact .drop
    · exact .drop
    · exact .stay _
  | record p =>
    simp only [step]
    split
    · next caller record t htask => exact .record htask
    · exact .stay _
  | notice r t => exact .notice

end Logistics.Gateway
