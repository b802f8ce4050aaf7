import Logistics.MessageHandler

namespace Logistics.Scenario

open KeyedTable JsonManager Database MessageHandler

/-- The dates that occur in the scenarios; PostgreSQL reads them as timestamps. -/
def clock : String → Option Int
  | "2026-01-01" => some 1
  | "2026-01-02" => some 2
  | "2026-01-03" => some 3
  | "2026-01-04" => some 4
  | "2026-01-05" => some 5
  | _ => none

/-- The first of several suitable clients is picked, and rows with equal
timestamps come out in the order of their ids. -/
def plainEnv : Env := ⟨0, clock, fun _ => none, 0, id⟩

def plainOracle : Oracle := ⟨fun _ => ⟨plainEnv, none⟩, fun _ => "2026-01-05", true, true, true⟩

def oneItem (itemId quantity : Int) : Items := itemsOf [⟨itemId, "", quantity⟩]

def itemsMessage (msgType : MsgType) (sourceRole sourceId timestamp : String) (items : Items) : Message :=
  createMessage msgType sourceRole sourceId server server (.items ⟨items, ""⟩) timestamp

def emptyDb : Db := ⟨.empty, .empty, 1, by simp [Table.empty]⟩

def handled (msg : Message) (db : Db) : Db := (handleOtherMessage plainOracle "tcp_1" msg .unknown db).2

def stockedDb : Db :=
  handled (itemsMessage .warehouseToServerInventoryUpdate warehouse "wh_1" "2026-01-01" (oneItem 1 50)) emptyDb

def oneAssigned : Db := handled (itemsMessage .hubToServerStockRequest hub "hub_1" "2026-01-02" (oneItem 1 5)) stockedDb

def shipmentNotice : Message :=
  itemsMessage .warehouseToServerShipmentNotice warehouse "wh_1" "2026-01-04" (oneItem 1 5)

end Logistics.Scenario
