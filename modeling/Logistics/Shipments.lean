import Logistics.ApiGateway
import Logistics.DecimalText
import Logistics.RowVersions

namespace Logistics.Shipments

open KeyedTable ApiGateway TrimSpace

structure ShipmentItem where
  itemId : Int
  itemName : String
  quantity : Int
  deriving DecidableEq, Repr

structure ShipmentRequest where
  shipmentId : String
  owner : String
  items : List ShipmentItem
  deriving DecidableEq, Repr

structure Uuid where
  text : String
  named : trimSpace text ≠ ""
  deriving DecidableEq

structure PreparedRequest extends ShipmentRequest where
  named : trimSpace shipmentId ≠ ""

inductive ShipmentStatus
  | pendingConfirmation
  | confirmed
  | dispatched
  deriving DecidableEq, Repr

def ShipmentStatus.text : ShipmentStatus → String
  | .pendingConfirmation => "pending_confirmation"
  | .confirmed => "confirmed"
  | .dispatched => "dispatched"

structure TrackedShipment where
  request : ShipmentRequest
  transactionId : String
  status : ShipmentStatus
  createdAt : String
  deriving DecidableEq, Repr

def TrackedShipment.shipmentId (record : TrackedShipment) : String := record.request.shipmentId

structure StatusResponse where
  shipmentId : String
  transactionId : String
  owner : String
  status : String
  createdAt : String
  items : List ShipmentItem
  deriving DecidableEq, Repr

def toStatusResponse (record : TrackedShipment) : StatusResponse :=
  ⟨record.request.shipmentId, record.transactionId, record.request.owner, record.status.text, record.createdAt,
    record.request.items⟩

structure Dispatcher where
  shipments : Table TrackedShipment.shipmentId
  transactions : Table (Prod.fst : String × String → String)

namespace Dispatcher

variable (d : Dispatcher)

def new : Dispatcher := ⟨.empty, .empty⟩

def prepared (request : ShipmentRequest) (uuid : Uuid) : PreparedRequest :=
  if h : trimSpace request.shipmentId = "" then { request with shipmentId := uuid.text, named := uuid.named }
  else { request with named := h }

def registered (request : ShipmentRequest) (now : String) : TrackedShipment :=
  match d.shipments.find? request.shipmentId with
  | none => ⟨request, "", .pendingConfirmation, now⟩
  | some record => { record with request }

def registerShipment (request : ShipmentRequest) (uuid : Uuid) (now : String) : StatusResponse × Dispatcher :=
  let record := d.registered (prepared request uuid).toShipmentRequest now
  (toStatusResponse record, { d with shipments := d.shipments.put record })

def lookupShipmentLocked (identifier : String) : Option TrackedShipment :=
  match d.shipments.find? identifier with
  | some record => some record
  | none => (d.transactions.find? identifier).bind fun entry => d.shipments.find? entry.2

def getShipment (identifier : String) : Option StatusResponse :=
  if trimSpace identifier = "" then none
  else (d.lookupShipmentLocked (trimSpace identifier)).map toStatusResponse

def forget (record : TrackedShipment) : Dispatcher where
  shipments := d.shipments.erase record.shipmentId
  transactions :=
    if trimSpace record.transactionId = "" then d.transactions else d.transactions.erase record.transactionId

def deleteShipment (shipmentId : String) : Dispatcher :=
  if trimSpace shipmentId = "" then d
  else
    match d.shipments.find? (trimSpace shipmentId) with
    | none => d
    | some record => d.forget record

def markDispatched (transactionId : String) : Dispatcher :=
  if trimSpace transactionId = "" then d
  else
    match (d.transactions.find? (trimSpace transactionId)).bind fun entry => d.shipments.find? entry.2 with
    | none => d
    | some record => { d with shipments := d.shipments.put { record with status := .dispatched } }

def cancelShipment (shipmentId callerUsername : String) : Except String StatusResponse × Dispatcher :=
  let shipmentId := trimSpace shipmentId
  match d.shipments.find? shipmentId with
  | none => (.error ("shipment not found: " ++ shipmentId), d)
  | some record =>
    if record.request.owner ≠ trimSpace callerUsername then
      (.error ("shipment does not belong to current user: " ++ shipmentId), d)
    else if record.status ≠ .pendingConfirmation then
      (.error ("shipment already dispatched: " ++ shipmentId), d)
    else (.ok { toStatusResponse record with status := "cancelled" }, d.forget record)

def dispatchConfirmed (shipmentId transactionId : String) : Dispatcher :=
  match d.shipments.find? shipmentId with
  | none => d
  | some record =>
    if trimSpace record.transactionId = "" then
      { shipments := d.shipments.put { record with transactionId, status := .confirmed }
        transactions := d.transactions.put (transactionId, shipmentId) }
    else d

def snapshot (shown : TrackedShipment → Bool) : List StatusResponse :=
  ((d.shipments.rows.filter shown).map toStatusResponse).mergeSort fun left right =>
    if left.createdAt = right.createdAt then left.shipmentId ≤ right.shipmentId else left.createdAt ≤ right.createdAt

def snapshotForOwner (owner : String) : List StatusResponse :=
  d.snapshot fun record => record.request.owner = trimSpace owner

def dispatchLookup (shipmentId : String) : Except String (Option TrackedShipment) :=
  match d.lookupShipmentLocked (trimSpace shipmentId) with
  | none => .error ("shipment not found: " ++ trimSpace shipmentId)
  | some record => .ok (if trimSpace record.transactionId = "" then some record else none)

/-- The part of `dispatchShipment` after the command. The copy takes the place of
whatever is tracked by now. -/
def dispatchComplete (record : TrackedShipment) (transactionId : String) : Dispatcher where
  shipments := d.shipments.put { record with transactionId, status := .confirmed }
  transactions := d.transactions.put (transactionId, record.shipmentId)

end Dispatcher

def valueint (n : Int) : Int := max (-2147483648) (min n 2147483647)

def commandItems (items : List ShipmentItem) : List (Option Int × Option Int) :=
  items.map fun item => (some (valueint item.itemId), some (valueint item.quantity))

def dispatchReply : Reply → Except String String
  | .error message => .error ("core rejected dispatch: " ++ if message = "" then "dispatch failed" else message)
  | .order _ transactionId =>
    if transactionId = 0 then .error "core response missing transaction_id" else .ok (toString transactionId)
  | _ => .error "core response missing transaction_id"

def Dispatcher.dispatchShipment (d : Dispatcher) (shipmentId : String) (attempt : Nat → InventoryManager.Attempt)
    (connected : Bool) (stamp : String) (db : Database.Db) : Except String (Option String) × Dispatcher × Database.Db :=
  match d.dispatchLookup shipmentId with
  | .error error => (.error error, d, db)
  | .ok none => (.ok none, d, db)
  | .ok (some record) =>
    let answer := cmdCreateShipment attempt connected stamp (some (commandItems record.request.items)) db
    match dispatchReply answer.1 with
    | .error error => (.error error, d, answer.2.2)
    | .ok transactionId => (.ok (some transactionId), d.dispatchComplete record transactionId, answer.2.2)

structure Answer where
  failed ::
  status : Nat
  error : String
  deriving DecidableEq, Repr

def itemError (index : Nat) (item : ShipmentItem) : Option String :=
  if item.quantity ≤ 0 then some ("items[" ++ toString index ++ "].quantity must be greater than 0")
  else if item.itemId = 0 ∧ trimSpace item.itemName = "" then
    some ("items[" ++ toString index ++ "] requires item_id or item_name")
  else none

def validateShipmentRequest (request : ShipmentRequest) : Option String :=
  if request.items = [] then some "items are required"
  else request.items.zipIdx.findSome? fun x => itemError x.2 x.1

def validateDispatchRequest (shipmentId : String) : Option String :=
  if trimSpace shipmentId = "" then some "shipment_id is required" else none

/-- `CreateShipment` up to `publish`; none is a body that does not parse. The request
that is published has the id of the status response. -/
def createShipment (d : Dispatcher) (caller : String) (body : Option ShipmentRequest) (uuid : Uuid) (now : String) :
    Except Answer PreparedRequest × Dispatcher :=
  match body with
  | none => (.error (.failed 400 "invalid shipment request body"), d)
  | some body =>
    let request := { body with owner := caller }
    match validateShipmentRequest request with
    | some error => (.error (.failed 400 error), d)
    | none => (.ok (Dispatcher.prepared request uuid), (d.registerShipment request uuid now).2)

def dispatch (d : Dispatcher) (caller : String) (body : Option String) : Except Answer String :=
  match body with
  | none => .error (.failed 400 "invalid dispatch request body")
  | some shipmentId =>
    match validateDispatchRequest shipmentId with
    | some error => .error (.failed 400 error)
    | none =>
      match d.getShipment shipmentId with
      | none => .error (.failed 404 "shipment not found")
      | some status =>
        if status.owner ≠ caller then .error (.failed 403 "shipment does not belong to current user")
        else .ok shipmentId

open RowVersions

variable {d : Dispatcher} {s t : String} {record : TrackedShipment}

inductive Action
  | register (request : ShipmentRequest) (uuid : Uuid) (now : String)
  | delete (shipmentId : String)
  | cancel (shipmentId callerUsername : String)
  | mark (transactionId : String)
  | confirm (shipmentId transactionId : String)
  | complete (record : TrackedShipment) (transactionId : String)
  deriving DecidableEq

namespace Dispatcher

def act (d : Dispatcher) : Action → Dispatcher
  | .register request uuid now => (d.registerShipment request uuid now).2
  | .delete shipmentId => d.deleteShipment shipmentId
  | .cancel shipmentId callerUsername => (d.cancelShipment shipmentId callerUsername).2
  | .mark transactionId => d.markDispatched transactionId
  | .confirm shipmentId transactionId => d.dispatchConfirmed shipmentId transactionId
  | .complete record transactionId => d.dispatchComplete record transactionId

theorem shipmentId_of_find? (h : d.shipments.find? s = some record) : record.shipmentId = s :=
  (Table.find?_eq_some.mp h).2

theorem shipmentId_registered (request : ShipmentRequest) (now : String) :
    (d.registered request now).shipmentId = request.shipmentId := by
  rw [registered]
  split <;> rfl

theorem prepared_prepared (request : PreparedRequest) (uuid : Uuid) :
    prepared request.toShipmentRequest uuid = request := by
  rw [prepared, dif_neg request.named]

theorem lookupShipmentLocked_cases (h : d.lookupShipmentLocked s = some record) : d.shipments.find? s = some record ∨
    ∃ s', d.transactions.find? s = some (s, s') ∧ d.shipments.find? s' = some record := by
  unfold lookupShipmentLocked at h
  split at h
  · next found hfound =>
    cases h
    exact .inl hfound
  · obtain ⟨⟨t, s'⟩, htransaction, hfound⟩ := Option.bind_eq_some_iff.mp h
    obtain rfl : t = s := (Table.find?_eq_some.mp htransaction).2
    exact .inr ⟨s', htransaction, hfound⟩

theorem find?_forget : (d.forget record).shipments.find? s =
    if s = record.shipmentId then none else d.shipments.find? s :=
  Table.find?_erase _ _ _

theorem cancelShipment_cases (d : Dispatcher) (shipmentId caller : String) :
    (∃ error, d.cancelShipment shipmentId caller = (.error error, d)) ∨
      ∃ record, d.shipments.find? (trimSpace shipmentId) = some record ∧ record.request.owner = trimSpace caller ∧
        record.status = .pendingConfirmation ∧ d.cancelShipment shipmentId caller =
          (.ok { toStatusResponse record with status := "cancelled" }, d.forget record) := by
  rw [cancelShipment]
  split
  · exact .inl ⟨_, rfl⟩
  · next record hfind =>
    by_cases howner : record.request.owner = trimSpace caller
    · rw [if_neg (not_not.mpr howner)]
      by_cases hpending : record.status = .pendingConfirmation
      · rw [if_neg (not_not.mpr hpending)]
        exact .inr ⟨record, hfind, howner, hpending, rfl⟩
      · rw [if_pos hpending]
        exact .inl ⟨_, rfl⟩
    · rw [if_pos howner]
      exact .inl ⟨_, rfl⟩

inductive Acts (d : Dispatcher) : Action → Dispatcher → Prop
  | idle {action : Action} : Acts d action d
  | register {request : ShipmentRequest} {uuid : Uuid} {now : String} : Acts d (.register request uuid now)
      { d with shipments := d.shipments.put (d.registered (prepared request uuid).toShipmentRequest now) }
  | delete {s : String} {record : TrackedShipment} (h : d.shipments.find? (trimSpace s) = some record) :
      Acts d (.delete s) (d.forget record)
  | cancel {s caller : String} {record : TrackedShipment} (h : d.shipments.find? (trimSpace s) = some record)
      (howner : record.request.owner = trimSpace caller) (hpending : record.status = .pendingConfirmation) :
      Acts d (.cancel s caller) (d.forget record)
  | mark {s t : String} {record : TrackedShipment} (ht : d.transactions.find? (trimSpace t) = some (trimSpace t, s))
      (h : d.shipments.find? s = some record) :
      Acts d (.mark t) { d with shipments := d.shipments.put { record with status := .dispatched } }
  | confirm {s t : String} {record : TrackedShipment} (h : d.shipments.find? s = some record)
      (hblank : trimSpace record.transactionId = "") : Acts d (.confirm s t) (d.dispatchComplete record t)
  | complete {record : TrackedShipment} {t : String} : Acts d (.complete record t) (d.dispatchComplete record t)

theorem acts (d : Dispatcher) (action : Action) : Acts d action (d.act action) := by
  cases action with
  | register => exact .register
  | complete => exact .complete
  | delete shipmentId =>
    rw [act, deleteShipment]
    split
    · exact .idle
    · split
      · exact .idle
      · next hfind => exact .delete hfind
  | cancel shipmentId caller =>
    rw [act]
    rcases d.cancelShipment_cases shipmentId caller with ⟨error, heq⟩ | ⟨record, hfind, howner, hpending, heq⟩
    · rw [heq]
      exact .idle
    · rw [heq]
      exact .cancel hfind howner hpending
  | mark transactionId =>
    rw [act, markDispatched]
    split
    · exact .idle
    · split
      · exact .idle
      · next record hfind =>
        obtain ⟨⟨t, s⟩, htransaction, hrecord⟩ := Option.bind_eq_some_iff.mp hfind
        obtain rfl : t = trimSpace transactionId := (Table.find?_eq_some.mp htransaction).2
        exact .mark htransaction hrecord
  | confirm shipmentId transactionId =>
    rw [act, dispatchConfirmed]
    split
    · exact .idle
    · next record hfind =>
      split
      · next hblank =>
        obtain rfl : record.shipmentId = shipmentId := shipmentId_of_find? hfind
        exact .confirm hfind hblank
      · exact .idle

end Dispatcher

end Logistics.Shipments
