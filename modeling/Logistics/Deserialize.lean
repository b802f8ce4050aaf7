import Logistics.ApiGateway
import Logistics.JsonText

namespace Logistics.Deserialize

open JsonManager ApiGateway JsonText

/-- A parsed document as cJSON holds it. A number is its `valueint`. -/
abbrev Json := Doc Int

def messageTypeSize : Nat := 64
def descriptionSize : Nat := 128
def itemNameSize : Nat := 32
def emergencyTypeSize : Nat := 20
def emergencyInstructionsSize : Nat := 100

def field (root : Json) (key : String) (size : Nat) : String := ((root.textItem key).map (safeStrcpy size)).getD ""

def intField (root : Json) (key : String) : Int := (root.intItem key).getD 0

def deserializeItem (item : Json) : Item :=
  ⟨intField item "item_id", field item "item_name" itemNameSize, intField item "quantity"⟩

def deserializeItemsList (root : Json) : ItemsList where
  items :=
    match root.item "items" with
    | some (.array items) => itemsOf ((items.take 6).map deserializeItem)
    | _ => fun _ => .zero
  orderTimestamp := field root "order_timestamp" timestampSize

inductive PayloadHandler
  | authRequest
  | authResponse
  | keepalive
  | itemsList
  | clientEmergency
  | serverEmergency
  | acknowledgment
  | genericArgs
  deriving DecidableEq

def PayloadHandler.deserialize (root : Json) : PayloadHandler → Payload
  | .authRequest => .authRequest (field root "username" credentialsSize) (field root "password" credentialsSize)
  | .authResponse => .authResponse (intField root "status_code")
  | .keepalive => .keepalive (field root "message" descriptionSize)
  | .itemsList => .items (deserializeItemsList root)
  | .clientEmergency =>
    .clientEmergency (intField root "emergency_code") (field root "emergency_type" emergencyTypeSize)
  | .serverEmergency =>
    .serverEmergency (intField root "emergency_code") (field root "instructions" emergencyInstructionsSize)
  | .acknowledgment => .acknowledgment (intField root "status_code") (field root "ack_for_timestamp" timestampSize)
  | .genericArgs => .genericArgs (field root "args" descriptionSize)

def handlers : List (MsgType × PayloadHandler) :=
  [(.hubToServerAuthRequest, .authRequest), (.cliToServerAuthRequest, .authRequest),
    (.gatewayToServerAuthRequest, .authRequest), (.hubToServerKeepalive, .keepalive),
    (.gatewayToServerKeepalive, .keepalive), (.hubToServerInventoryUpdate, .itemsList),
    (.hubToServerEmergencyAlert, .clientEmergency), (.hubToServerStockRequest, .itemsList),
    (.hubToServerStockReceiptConfirmation, .itemsList), (.hubToServerAck, .acknowledgment),
    (.warehouseToServerAuthRequest, .authRequest), (.warehouseToServerKeepalive, .keepalive),
    (.warehouseToServerInventoryUpdate, .itemsList), (.warehouseToServerEmergencyAlert, .clientEmergency),
    (.warehouseToServerShipmentNotice, .itemsList), (.warehouseToServerReplenishRequest, .itemsList),
    (.warehouseToServerStockReceiptConfirmation, .itemsList), (.warehouseToServerAck, .acknowledgment),
    (.gatewayToServerAck, .acknowledgment), (.serverToHubAuthResponse, .authResponse),
    (.serverToWarehouseAuthResponse, .authResponse), (.serverToCliAuthResponse, .authResponse),
    (.serverToGatewayAuthResponse, .authResponse), (.serverToHubInventoryUpdate, .itemsList),
    (.serverToWarehouseInventoryUpdate, .itemsList), (.serverToWarehouseOrderToDispatchStockToHub, .itemsList),
    (.serverToWarehouseRestockNotice, .itemsList), (.serverToHubIncomingStockNotice, .itemsList),
    (.serverToHubOrderToDispatchStock, .itemsList), (.hubToServerDispatchConfirmation, .itemsList),
    (.serverToAllClientsEmergencyAlert, .serverEmergency), (.serverToHubAck, .acknowledgment),
    (.serverToWarehouseAck, .acknowledgment), (.serverToGatewayAck, .acknowledgment),
    (.serverToGatewayOrderDispatched, .genericArgs)]

def findHandler (msgType : String) : Option PayloadHandler :=
  (handlers.find? fun h => h.1.text.toList <:+: msgType.toList).map Prod.snd

def knownTypes : List MsgType :=
  handlers.map Prod.fst ++ [.cliToServerAdminCommand, .gatewayToServerCommand, .serverToGatewayCommandResponse]

def msgTypeOf (text : String) : MsgType := (knownTypes.find? fun t => t.text = text).getD (.other text)

/-- The zeroed union when there is no handler, and what its handler makes of an
empty object when there is no payload object. -/
def deserializePayload (msgType : String) (payload : Option Json) : Payload :=
  match findHandler msgType, payload with
  | none, _ => .genericArgs ""
  | some h, some (.object fields) => h.deserialize (.object fields)
  | some h, _ => h.deserialize (.object [])

def deserializeMessage (root : Json) : Message where
  msgType := msgTypeOf (field root "msg_type" messageTypeSize)
  sourceRole := field root "source_role" roleSize
  sourceId := field root "source_id" idSize
  targetRole := field root "target_role" roleSize
  targetId := field root "target_id" idSize
  timestamp := field root "timestamp" timestampSize
  payload := deserializePayload (field root "msg_type" messageTypeSize) (root.item "payload")
  checksum := field root "checksum" checksumSize

def deserializeMessageFromJson (parse : String → Option Json) (json : String) : Option Message :=
  (parse json).map deserializeMessage

def commandSize : Nat := 64

def readCommand (root : Json) : Command :=
  let payload := (root.item "payload").getD .null
  let cmd := field payload "command" commandSize
  if cmd = "ping" then .ping
  else if cmd = "create_new_order" then
    .createNewOrder (match payload.item "items" with
      | some (.array items) => some (items.map fun item => (item.intItem "item_id", item.intItem "quantity"))
      | _ => none)
  else if cmd = "get_shipment_status" then .getShipmentStatus (payload.textItem "args")
  else .unknown

theorem field_length (root : Json) (key : String) {size : Nat} (h : 0 < size) :
    (field root key size).length < size := by
  rw [field]
  cases root.textItem key with
  | none => exact h
  | some value =>
    rw [Option.map_some, Option.getD_some, safeStrcpy, String.length_ofList, List.length_take]
    omega

theorem deserializeMessage_sourceId_length (root : Json) : (deserializeMessage root).sourceId.length < idSize :=
  field_length root "source_id" (by decide)

end Logistics.Deserialize
