import Logistics.InventoryManager

namespace Logistics.ApiGateway

open JsonManager Database InventoryManager

/-- The payload object of a gateway command as the plugin reads it. A missing or
non-numeric `item_id` or `quantity` is none, as is an `items` that is no array. -/
inductive Command
  | ping
  | createNewOrder (items : Option (List (Option Int × Option Int)))
  | getShipmentStatus (args : Option String)
  | unknown

inductive Reply
  | error (message : String)
  | pong
  | order (dispatchHubId : Option String) (transactionId : Nat)
  | status (text : String)
  deriving DecidableEq, Repr

structure SideEffect where
  targetUsername : String
  message : Message
  transactionId : Nat

def setOrderQuantity (q : Quantities) : Option Int × Option Int → Quantities
  | (some id, some quantity) => fun j => if id = (j.val : Int) + 1 then quantity else q j
  | _ => q

def orderQuantities (items : List (Option Int × Option Int)) : Quantities := items.foldl setOrderQuantity 0

/-- The statements of the plugin run outside a transaction block: each one
commits on its own. -/
def findHub (q : Quantities) : Work (Option String) := .exec (.selectByStock hub q) none fun found => .commit found none

def insertOrder (sourceId : String) (status : Status) (q : Quantities) : Work (Option Nat) :=
  .exec (.insertOrderDispatch sourceId status q) none fun id => .commit (some id) none

def cmdCreateShipment (attempt : Nat → Attempt) (connected : Bool) (stamp : String)
    (items : Option (List (Option Int × Option Int))) (db : Db) : Reply × Option SideEffect × Db :=
  if connected = false then (.error "database not connected", none, db)
  else
    match items with
    | none | some [] => (.error "items array required", none, db)
    | some items =>
      let q := orderQuantities items
      let found := perform (attempt 0) (findHub q) db
      let hubId := found.1.map (safeStrcpy idSize)
      let created := perform (attempt 1)
        (insertOrder (hubId.getD "") (if hubId.isSome then .assigned else .pending) q) found.2
      match created.1 with
      | none => (.error "failed to create transaction", none, created.2)
      | some id =>
        let side := hubId.bind fun hubId =>
          (createItemsMessage .serverToHubOrderToDispatchStock server hubId (itemsOf (positiveItems q))
            (positiveItems q).length none stamp).map fun msg => ⟨hubId, msg, id⟩
        (.order hubId id, side, created.2)

def statusText : Status → String
  | .pending => "pending"
  | .assigned => "assigned"
  | .dispatched => "dispatched"
  | .completed => "completed"

def findStatus (id : Nat) : Work (Option Status) :=
  .exec (.selectTransaction id) none fun row => .commit (row.map TransactionRow.status) none

def cmdGetShipmentStatus (attempt : Nat → Attempt) (connected : Bool) (args : Option String) (db : Db) : Reply × Db :=
  if connected = false then (.error "database not connected", db)
  else
    match args with
    | none | some "" => (.error "args (transaction_id) required", db)
    | some args =>
      match (attempt 0).env.parseInteger args with
      | none => (.error "transaction not found", db)
      | some id =>
        let found := perform (attempt 0) (findStatus id) db
        match found.1 with
        | none => (.error "transaction not found", found.2)
        | some status => (.status (statusText status), found.2)

def apiGatewayHandle (attempt : Nat → Attempt) (connected : Bool) (stamp : String) (command : Command) (db : Db) :
    Reply × Option SideEffect × Db :=
  match command with
  | .ping => (.pong, none, db)
  | .createNewOrder items => cmdCreateShipment attempt connected stamp items db
  | .getShipmentStatus args =>
    let r := cmdGetShipmentStatus attempt connected args db
    (r.1, none, r.2)
  | .unknown => (.error "unknown command", none, db)

end Logistics.ApiGateway
