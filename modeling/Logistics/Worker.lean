import Logistics.Ipc
import Logistics.AuthModule
import Logistics.Deserialize
import Logistics.MessageHandler

namespace Logistics.Worker

open Ipc JsonManager Database InventoryManager ApiGateway Deserialize MessageHandler AuthModule

/-- The payload of a slot. A message stands for its JSON text; the transaction is
not part of the text, it is the one that an order or notice is about. -/
inductive Frame
  | empty
  | message (msg : Message) (transactionId : Option Nat)
  | adminReply
  | gatewayReply (reply : Reply)

structure Slot where
  command : ResponseCommand
  sessionId : String
  payload : Frame
  timerTimeout : Nat
  timerKey : String
  retryCount : Nat
  maxRetries : Nat
  clientType : String
  username : String
  targetUsername : String
  startAckTimer : Bool
  mqttTransactionId : Int

structure Config where
  ackTimeout : Nat
  maxRetries : Nat
  keepaliveTimeout : Nat

def zeroedSlot (command : ResponseCommand) : Slot := ⟨command, "", .empty, 0, "", 0, 0, "", "", "", false, 0⟩

variable (cfg : Config)

def makeSendResponse (sessionId : String) (frame : Frame) : Slot :=
  { zeroedSlot .send with sessionId := sessionId, payload := frame }

def makeSendToUsername (username : String) (msg : Message) (transactionId : Option Nat) : Slot :=
  { zeroedSlot .send with
    targetUsername := username
    payload := .message msg transactionId
    startAckTimer := true
    timerKey := safeStrcpy timestampSize msg.timestamp
    timerTimeout := cfg.ackTimeout
    maxRetries := cfg.maxRetries }

def makeStartTimer (sessionId : String) (msg : Message) : Slot :=
  { zeroedSlot .startAckTimer with
    sessionId := sessionId
    timerKey := safeStrcpy timestampSize msg.timestamp
    timerTimeout := cfg.ackTimeout
    maxRetries := cfg.maxRetries
    payload := .message msg none }

def makeCancelTimer (sessionId timestamp : String) : Slot :=
  { zeroedSlot .cancelAckTimer with sessionId := sessionId, timerKey := safeStrcpy timestampSize timestamp }

def makeMarkAuthenticated (sessionId clientType username : String) : Slot :=
  { zeroedSlot .markAuthenticated with
    sessionId := sessionId
    clientType := safeStrcpy roleSize clientType
    username := safeStrcpy credentialsSize username }

def makeStartKeepaliveTimer (sessionId : String) : Slot :=
  { zeroedSlot .startKeepaliveTimer with sessionId := sessionId, timerTimeout := cfg.keepaliveTimeout }

def makeResetKeepaliveTimer (sessionId : String) : Slot :=
  { zeroedSlot .resetKeepaliveTimer with sessionId := sessionId }

def slotOf : Response → Slot
  | .send sessionId msg => makeSendResponse sessionId (.message msg none)
  | .sendToUsername username msg transactionId => makeSendToUsername cfg username msg transactionId
  | .startAckTimer sessionId msg => makeStartTimer cfg sessionId msg
  | .broadcast msg => { zeroedSlot .broadcast with payload := .message msg none }
  | .adminReply sessionId => makeSendResponse sessionId .adminReply
  | .gatewayReply sessionId reply => makeSendResponse sessionId (.gatewayReply reply)
  | .mqttPublishRoute transactionId => { zeroedSlot .mqttPublishRoute with mqttTransactionId := transactionId }

def okStatus : Int := 200

def generateAckIfNeeded (stamp : String) (msg : Message) (req : RequestSlot) : Option Slot :=
  if categorizeMessage msg.msgType = .authRequest ∨ categorizeMessage msg.msgType = .ackMessage then none
  else if req.isAuthenticated = false then none
  else (createAcknowledgmentMessage server server msg.sourceRole msg.sourceId msg.timestamp okStatus stamp).map
    fun ack => makeSendResponse req.sessionId (.message ack none)

def generateAck (parse : String → Option Json) (stamp : String) (req : RequestSlot) : Option Slot :=
  if req.isDisconnect ∨ req.isBlacklisted ∨ req.isAuthenticated = false then none
  else (deserializeMessageFromJson parse req.rawJson).bind fun msg => generateAckIfNeeded stamp msg req

def getAuthResponseType (role : String) : Option MsgType :=
  if role = hub then some .serverToHubAuthResponse
  else if role = warehouse then some .serverToWarehouseAuthResponse
  else if role = cli then some .serverToCliAuthResponse
  else if role = gateway then some .serverToGatewayAuthResponse
  else none

def createAuthResponseMessage (targetRole targetId : String) (statusCode : Int) (stamp : String) : Option Message :=
  (getAuthResponseType targetRole).map fun t =>
    createMessage t server server targetRole targetId (.authResponse statusCode) stamp

def inventoryItems (q : Quantities) : Items := fun j => ⟨(j.val : Int) + 1, itemNames j, q j⟩

def clientInventoryMessage (a : Attempt) (stamp clientId clientType : String) (db : Db) : Option Message × Db :=
  let found := InventoryManager.perform a (getClientInventoryMessage clientId clientType) db
  let msgType : Option MsgType :=
    if clientType = hub then some .serverToHubInventoryUpdate
    else if clientType = warehouse then some .serverToWarehouseInventoryUpdate
    else none
  (found.1.bind fun q => msgType.bind fun t => createItemsMessage t server clientId (inventoryItems q) 6 none stamp,
    found.2)

def loginFields (msg : Message) : String × String :=
  match msg.payload with
  | .authRequest username password => (username, password)
  | _ => ("", "")

def ackForTimestamp (msg : Message) : String :=
  match msg.payload with
  | .acknowledgment _ timestamp => timestamp
  | _ => ""

structure Store where
  db : Db
  credentials : Credentials
  deadSessions : Finset String

def handleAuthRequest (o : Oracle) (msg : Message) (req : RequestSlot) (store : Store) : List Slot × Store :=
  let auth := authenticate (fun n => (o.attempt n).fault) (loginFields msg).1 (loginFields msg).2 store.credentials
  let result := auth.1
  let store := { store with credentials := auth.2 }
  match createAuthResponseMessage msg.sourceRole msg.sourceId result.statusCode.value (o.stamp 0) with
  | none => ([], store)
  | some response =>
    if result.statusCode = .success then
      let isCli := result.clientType = cli
      let isGateway := result.clientType = gateway
      let inventory :=
        if ¬ isCli ∧ ¬ isGateway then
          clientInventoryMessage (o.attempt 2) (o.stamp 1) result.username result.clientType store.db
        else (none, store.db)
      ([makeMarkAuthenticated req.sessionId result.clientType result.username,
        makeSendResponse req.sessionId (.message response none)] ++
        (if isCli then [] else [makeStartTimer cfg req.sessionId response]) ++
        (match inventory.1 with
          | none => []
          | some m => [makeSendResponse req.sessionId (.message m none), makeStartTimer cfg req.sessionId m]) ++
        (if isCli then [] else [makeStartKeepaliveTimer cfg req.sessionId]),
        { store with db := inventory.2 })
    else ([makeSendResponse req.sessionId (.message response none)], store)

def handleAckMessage (msg : Message) (req : RequestSlot) : List Slot :=
  [makeCancelTimer req.sessionId (ackForTimestamp msg)]

def handleMessage (o : Oracle) (root : Json) (req : RequestSlot) (store : Store) : Option (List Slot) × Store :=
  let msg := deserializeMessage root
  match categorizeMessage msg.msgType with
  | .authRequest => (handleAuthRequest cfg o msg req store).map some id
  | .ackMessage => (some (handleAckMessage msg req), store)
  | .keepaliveMsg => (some [makeResetKeepaliveTimer req.sessionId], store)
  | _ =>
    let handled := handleOtherMessage o req.sessionId msg (readCommand root) store.db
    (handled.1.map (List.map (slotOf cfg)), { store with db := handled.2 })

/-- None in the first component is an exception that leaves the function. -/
def processRequest (parse : String → Option Json) (o : Oracle) (req : RequestSlot) (store : Store) :
    Option (List Slot) × Store :=
  if req.isDisconnect then
    (some [], { store with
      credentials :=
        if req.username = "" then store.credentials
        else deactivateClient (o.attempt 0).fault req.username store.credentials
      deadSessions := if req.sessionId = "" then store.deadSessions else insert req.sessionId store.deadSessions })
  else if req.sessionId ≠ "" ∧ req.sessionId ∈ store.deadSessions then (some [], store)
  else if req.isBlacklisted then (some [], store)
  else
    match parse req.rawJson with
    | none => (some [], store)
    | some root =>
      if categorizeMessage (deserializeMessage root).msgType ≠ .authRequest ∧ req.isAuthenticated = false then
        (some [], store)
      else handleMessage cfg o root req store

end Logistics.Worker
