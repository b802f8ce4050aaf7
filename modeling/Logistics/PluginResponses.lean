import Logistics.AdminCli
import Logistics.Scenario

namespace Logistics.AdminCli

open KeyedTable JsonManager JsonText Deserialize Database AuthModule Serialize Server ApiGateway List

variable {c : Content} {text : List Char} {tree : Json} {n : Int}

/-- `tcp_session::do_write_next` and `udp_server::send_to_session` pad the text to a
frame, or cut it. -/
def frame (data : List Char) : List Char :=
  let text := if bufferSize ≤ data.length then data.take (bufferSize - 1) else data
  text ++ replicate (bufferSize - text.length) '\x00'

/-- The text is a complete document, the copy into the payload of a slot stays in
its bounds, and the frame has all of it. -/
structure Fits (text : List Char) : Prop where
  complete : ∃ tree : Json, text = printUnformatted tree
  bounded : text.length ≤ bufferSize
  framed : ∃ padding, 0 < padding ∧ frame text = text ++ replicate padding '\x00'

theorem fits_take {max : Nat} (hmax : bufferSize ≤ max - 1) (h : (printUnformatted tree).length < bufferSize) :
    Fits ((printUnformatted tree).take (max - 1)) := by
  rw [take_of_length_le (h.le.trans hmax)]
  refine ⟨⟨tree, rfl⟩, h.le, bufferSize - (printUnformatted tree).length, Nat.sub_pos_of_lt h, ?_⟩
  rw [frame, if_neg (Nat.not_le_of_lt h)]

theorem length_frame (data : List Char) : (frame data).length = bufferSize := by
  rw [frame, length_append, length_replicate]
  split
  · rw [length_take]
    omega
  · omega

theorem fits_snprintf_iff : Fits (snprintf tree) ↔ (printUnformatted tree).length < bufferSize := by
  constructor
  · rintro ⟨-, -, padding, hpadding, hframe⟩
    have hlength := congrArg List.length hframe
    have hsizes : bufferSize < adminResponseMax - 1 := by decide
    rw [length_frame, snprintf, length_append, length_take, length_replicate] at hlength
    omega
  · exact fits_take (by decide)

def width (text : String) : Nat := (printUnformatted (.string text : Json)).length

theorem width_le (text : String) : width text ≤ 6 * text.length + 2 := by
  have hescape (c : Char) : (escape c).length ≤ 6 := by
    rw [escape]
    repeat' split
    all_goals simp
  have hflat (l : List Char) : (l.flatMap escape).length ≤ 6 * l.length := by
    induction l with
    | nil => exact Nat.le_refl _
    | cons c l ih =>
      have hc := hescape c
      rw [flatMap_cons, length_append, length_cons]
      omega
  have h := hflat text.toList
  rw [width, printUnformatted_string, printString, length_append, length_cons, length_singleton]
  rw [String.length_toList] at h
  omega

theorem inInteger_asInt (n : Int) : inInteger (asInt n) := by
  have hlo := Int.le_bmod (x := n) (m := 2 ^ 32) (by decide)
  have hhi := Int.bmod_lt (x := n) (m := 2 ^ 32) (by decide)
  rw [asInt, inInteger]
  omega

theorem length_inInteger (h : inInteger n) : (printUnformatted (.number n)).length ≤ 11 := length_number h.1 h.2

def digits (n : Int) : Nat := (printUnformatted (.number n)).length

theorem length_array (items : List Json) : (printUnformatted (.array items)).length =
    max 2 (1 + (items.map fun item => (printUnformatted item).length + 1).sum) := by
  cases items with
  | nil => rfl
  | cons item items =>
    have hsum := length_intercalate (printUnformatted item) (items.map printUnformatted)
    rw [← map_cons, map_map] at hsum
    change _ = ((item :: items).map fun item => (printUnformatted item).length + 1).sum at hsum
    rw [printUnformatted_array, ← hsum]
    simp only [length_append, length_cons, length_nil]
    omega

def pageLength (key : String) (p : Page) (rows : List Nat) : Nat :=
  51 + key.length + digits p.page + digits p.totalPages + digits p.total + max 2 (1 + (rows.map (· + 1)).sum)

theorem length_buildPaged {key : String} (hkey : Unescaped key) (data : List Json) (p : Page) :
    (printUnformatted (.object [("status", .string "ok"), ("page", .number p.page),
      ("total_pages", .number p.totalPages), ("total", .number p.total), (key, .array data)])).length =
      pageLength key p (data.map fun item => (printUnformatted item).length) := by
  have hkeys : ∀ k ∈ ["status", "page", "total_pages", "total", key], Unescaped k := by
    simp only [forall_mem_cons]
    exact ⟨by decide, by decide, by decide, by decide, hkey, forall_mem_nil _⟩
  have hok : (printUnformatted (.string "ok" : Json)).length = 4 := by decide
  have hlengths : "status".length + 4 + ("page".length + 4) + ("total_pages".length + 4) + ("total".length + 4) = 42 := by
    decide
  rw [length_object ["status", "page", "total_pages", "total", key] rfl hkeys, pageLength, map_map]
  simp only [map_cons, map_nil, sum_cons, sum_nil, length_array, hok, digits, Function.comp_def]
  omega

def clientLength (row : Credential) : Nat := 21 + width row.username + width row.clientType

theorem length_clientJson (row : Credential) : (printUnformatted (clientJson row)).length = clientLength row := by
  have hkeys : (["username", "type"].map fun key => key.length + 4).sum = 20 := by decide
  rw [clientJson, length_object ["username", "type"] rfl (by decide), hkeys, clientLength, width, width]
  simp only [map_cons, map_nil, sum_cons, sum_nil]
  omega

def quantityKeys : List String := ["food", "water", "medicine", "tools", "guns", "ammo"]

def quantityDigits (q : Quantities) : Nat := ((finRange 6).map fun j => digits (asInt (q j))).sum

theorem sum_quantityFields (q : Quantities) :
    ((quantityFields q).map fun f => (printUnformatted f.2).length).sum = quantityDigits q := by
  rw [quantityFields, map_map]
  rfl

def transactionLength (t : TransactionRow) : Nat :=
  93 + digits (asInt t.transactionId) + width (typeText t.transactionType) + width (t.sourceId.getD "") +
    width t.destinationId + width (statusText t.status) + quantityDigits t.quantities

theorem length_transactionJson (t : TransactionRow) :
    (printUnformatted (transactionJson t)).length = transactionLength t := by
  have hkeys : ((["id", "type", "src", "dst", "status"] ++ quantityKeys).map fun key => key.length + 4).sum = 92 := by
    decide
  rw [transactionJson, cons_append, length_object (["id", "type", "src", "dst", "status"] ++ quantityKeys) rfl
    (by decide), hkeys, ← cons_append, map_append, sum_append, sum_quantityFields, transactionLength]
  simp only [map_cons, map_nil, sum_cons, sum_nil, digits, width]
  omega

def inventoryLength (c : Content) (clientId : String) (row : InventoryRow) : Nat :=
  99 + width clientId + width row.clientType + quantityDigits row.stock + width (c.stampText row.lastUpdated)

theorem length_inventoryJson (clientId : String) (row : InventoryRow) :
    (printUnformatted (inventoryJson c clientId row)).length = inventoryLength c clientId row := by
  have hkeys : ((["client_id", "client_type"] ++ quantityKeys ++ ["last_updated"]).map fun key =>
    key.length + 4).sum = 98 := by decide
  rw [inventoryJson, cons_append, cons_append,
    length_object (["client_id", "client_type"] ++ quantityKeys ++ ["last_updated"]) rfl (by decide), hkeys,
    ← cons_append, ← cons_append, map_append, sum_append, map_append, sum_append,
    sum_quantityFields, inventoryLength]
  simp only [map_cons, map_nil, sum_cons, sum_nil, width]
  omega

variable {message : String}

theorem fits_buildError (h : width message ≤ 100) : Fits (buildError message).2 := by
  apply fits_snprintf_iff.mpr
  have herror : (printUnformatted (.string "error" : Json)).length ≤ 7 := by decide
  exact Nat.lt_of_le_of_lt (length_object_le ["status", "message"] [7, 100] rfl (by decide)
    (.cons herror (.cons h .nil)) (Nat.le_refl _)) (by decide)

theorem fits_cmdHelp : Fits cmdHelp.2 := by
  apply fits_snprintf_iff.mpr
  decide +kernel

def PageFits {ρ : Type} (c : Content) (key : String) (size : Nat) (rows : List ρ) (rowLength : ρ → Nat) (page : Int) :
    Prop :=
  let p := paginate size (asInt rows.length) page
  c.answers 0 = true → c.answers 1 = true → 0 ≤ p.offset →
    pageLength key p (((rows.drop p.offset.toNat).take size).map rowLength) < bufferSize

theorem fits_listPage_iff {ρ : Type} {key : String} (hkey : Unescaped key) {size : Nat} {rows : List ρ}
    {json : ρ → Json} {rowLength : ρ → Nat} (hrow : ∀ row, (printUnformatted (json row)).length = rowLength row)
    {page : Int} : Fits (listPage c key size rows json page).2 ↔ PageFits c key size rows rowLength page := by
  have hquery : Fits (buildError "query failed").2 := fits_buildError (by decide)
  rw [listPage, PageFits]
  by_cases hcount : c.answers 0 = false
  · rw [if_pos hcount]
    exact iff_of_true hquery fun htrue => absurd (hcount.symm.trans htrue) (by decide)
  rw [if_neg hcount]
  dsimp only
  by_cases hselect : c.answers 1 = true
  · by_cases hoffset : (paginate size (asInt rows.length) page).offset < 0
    · rw [if_pos hselect, limitOffset, if_pos hoffset]
      exact iff_of_true hquery fun _ _ hle => absurd hoffset (Int.not_lt.mpr hle)
    · rw [if_pos hselect, limitOffset, if_neg hoffset]
      have hlengths (rows : List ρ) :
          (rows.map json).map (fun item => (printUnformatted item).length) = rows.map rowLength := by
        rw [map_map]
        exact map_congr_left fun row _ => hrow row
      refine fits_snprintf_iff.trans ?_
      rw [length_buildPaged hkey, hlengths]
      exact ⟨fun h _ _ _ => h, fun h => h (Bool.eq_true_of_not_eq_false hcount) hselect (Int.not_lt.mp hoffset)⟩
  · rw [if_neg hselect]
    exact iff_of_true hquery fun _ htrue => absurd htrue hselect

def InventoryFits (c : Content) (clientId : Option String) : Prop :=
  ∀ id ∈ clientId, id ≠ "" → c.answers 0 = true → ∀ row, c.db.inventory.find? id = some row →
    28 + inventoryLength c id row < bufferSize

theorem fits_cmdInventory_iff (clientId : Option String) :
    Fits (cmdInventory c true clientId).2 ↔ InventoryFits c clientId := by
  have hrequires : Fits (buildError "inventory requires args: client_id").2 := fits_buildError (by decide)
  rw [cmdInventory.eq_def, if_neg (by decide), InventoryFits]
  split
  · exact iff_of_true hrequires (by simp)
  · exact iff_of_true hrequires (by simp)
  next id hne =>
  have hid : id ≠ "" := fun h => hne (h ▸ rfl)
  simp only [Option.mem_some_iff, forall_eq', ne_eq, hid, not_false_eq_true, true_imp_iff]
  split
  next hanswers => exact iff_of_true (fits_buildError (by decide)) fun h => absurd (hanswers.symm.trans h) (by decide)
  next hanswers =>
    cases hrow : c.db.inventory.find? id with
    | none => exact iff_of_true (fits_buildError (by decide)) (by simp)
    | some row =>
      have hkeys : (["status", "inventory"].map fun key => key.length + 4).sum = 23 := by decide
      have hok : (printUnformatted (.string "ok" : Json)).length = 4 := by decide
      have hlength : (printUnformatted (.object [("status", .string "ok"), ("inventory", inventoryJson c id row)])).length =
          28 + inventoryLength c id row := by
        rw [length_object ["status", "inventory"] rfl (by decide), hkeys, ← length_inventoryJson]
        simp only [map_cons, map_nil, sum_cons, sum_nil, hok]
        omega
      refine fits_snprintf_iff.trans ?_
      rw [hlength]
      simp [Bool.eq_true_of_not_eq_false hanswers]

def Room (c : Content) (command args : Option String) : Prop :=
  (command = some "clients" →
    PageFits c "clients" clientsPageSize (clientRows c args) clientLength (parseIntArg args "page " 1)) ∧
  (command = some "inventory" → InventoryFits c args) ∧
  (command = some "transactions" →
    PageFits c "transactions" transactionsPageSize (transactionRows c args) transactionLength
      (parseIntArg args "page " 1))

theorem fits_adminCliHandle_iff (parse : String → Option Json) (connected : Bool) (rawJson : String) :
    Fits (adminCliHandle parse c connected rawJson).2 ↔ ∀ root, parse rawJson = some root → connected = true →
        Room c (((root.item "payload").getD .null).textItem "command")
          (((root.item "payload").getD .null).textItem "args") := by
  rw [adminCliHandle]
  cases hparse : parse rawJson with
  | none => exact iff_of_true (fits_buildError (by decide)) (by simp)
  | some root =>
    simp only [Option.some.injEq, forall_eq']
    generalize ((root.item "payload").getD .null).textItem "args" = args
    cases hcommand : ((root.item "payload").getD .null).textItem "command" with
    | none => exact iff_of_true (fits_buildError (by decide)) fun _ => ⟨by simp, by simp, by simp⟩
    | some command =>
      simp only [Room, Option.some.injEq]
      cases connected with
      | false =>
        refine iff_of_true ?_ (by simp)
        have hnone : Fits (buildError "no database connection").2 := fits_buildError (by decide)
        split
        · exact fits_cmdHelp
        split
        · exact hnone
        split
        · exact hnone
        split
        · exact hnone
        · exact fits_buildError (by decide)
      | true =>
        rw [forall_prop_of_true rfl]
        split
        next h => exact iff_of_true fits_cmdHelp (by simp [h])
        split
        next h =>
          simp only [h, true_imp_iff, String.reduceEq, false_imp_iff, and_true]
          exact fits_listPage_iff (by decide) length_clientJson
        split
        next h =>
          simp only [h, true_imp_iff, String.reduceEq, false_imp_iff, and_true, true_and]
          exact fits_cmdInventory_iff args
        split
        next h =>
          simp only [h, true_imp_iff, String.reduceEq, false_imp_iff, true_and]
          exact fits_listPage_iff (by decide) length_transactionJson
        next h₁ h₂ h₃ => exact iff_of_true (fits_buildError (by decide)) (by simp [*])

def gatewayResponseMax : Nat := 4096

/-- The header that the gateway plugin answers with. If the role of the requester
has no acknowledgment, all its fields are empty. -/
def commandResponse (req : Message) (stamp : String) : Message :=
  { (createAcknowledgmentMessage server server req.sourceRole req.sourceId req.timestamp Worker.okStatus stamp).getD
      ⟨.other "", "", "", "", "", "", .genericArgs "", ""⟩ with msgType := .serverToGatewayCommandResponse }

def replyPayload : Reply → Json
  | .error message => .object [("status", .string "error"), ("data", .object [("message", .string message)])]
  | .pong => .object [("status", .string "ok"), ("data", .object [("message", .string "pong")])]
  | .order (some hubId) id => .object [("status", .string "ok"), ("data", .object [("status", .string "assigned"),
      ("dispatch_hub_id", .string hubId), ("transaction_id", .number (asInt id))])]
  | .order none id => .object [("status", .string "ok"), ("data", .object [("status", .string "pending"),
      ("transaction_id", .number (asInt id))])]
  | .status text => .object [("status", .string text)]

def withPayload (payload : Json) : Json → Json
  | .object fields => .object (fields.filter (fun f => f.1 ≠ "payload") ++ [("payload", payload)])
  | root => root

/-- None is the return value -1. The printed header is read back as it was. -/
def buildResponseJson (printPreallocated : Json → Nat → Option String) (req : Message) (stamp : String)
    (reply : Reply) : Option (List Char) :=
  (serializeMessageToJson printPreallocated (commandResponse req stamp)).map fun _ =>
    (printUnformatted (withPayload (replyPayload reply) (serializeMessage (commandResponse req stamp)))).take
      (gatewayResponseMax - 1)

def gatewayResponse (printPreallocated : Json → Nat → Option String) (parse : String → Option Json)
    (attempt : Nat → InventoryManager.Attempt) (connected : Bool) (stamp rawJson : String) (db : Db) :
    Option (List Char) :=
  (parse rawJson).bind fun root =>
    buildResponseJson printPreallocated (deserializeMessage root) stamp
      (apiGatewayHandle attempt connected stamp (readCommand root) db).1

theorem width_le_of_length {text : String} {size : Nat} (h : text.length < size) : width text ≤ 6 * size - 4 := by
  have hle := width_le text
  omega

theorem width_safeStrcpy_le (size : Nat) (hsize : 0 < size) (text : String) :
    width (safeStrcpy size text) ≤ 6 * size - 4 := by
  apply width_le_of_length
  rw [safeStrcpy, String.length_ofList, length_take]
  omega

variable {stamp : String}

theorem width_commandResponse (req : Message) (hstamp : stamp.length < timestampSize) :
    width (commandResponse req stamp).sourceRole ≤ 92 ∧ width (commandResponse req stamp).sourceId ≤ 92 ∧
      width (commandResponse req stamp).targetRole ≤ 92 ∧ width (commandResponse req stamp).targetId ≤ 92 ∧
      width (commandResponse req stamp).timestamp ≤ 188 ∧ width (commandResponse req stamp).checksum ≤ 44 := by
  simp only [commandResponse]
  cases hack : createAcknowledgmentMessage server server req.sourceRole req.sourceId req.timestamp Worker.okStatus
    stamp with
  | none => decide
  | some ack =>
    obtain ⟨t, -, rfl⟩ := Option.map_eq_some_iff.mp hack
    exact ⟨width_safeStrcpy_le roleSize (by decide) _, width_safeStrcpy_le idSize (by decide) _,
      width_safeStrcpy_le roleSize (by decide) _, width_safeStrcpy_le idSize (by decide) _,
      width_le_of_length hstamp, width_safeStrcpy_le checksumSize (by decide) _⟩

def Brief : Reply → Prop
  | .error message => width message ≤ 40
  | .pong => True
  | .order hubId _ => ∀ id ∈ hubId, width id ≤ 92
  | .status text => width text ≤ 40

theorem brief_apiGatewayHandle (attempt : Nat → InventoryManager.Attempt) (connected : Bool) (stamp : String)
    (command : Command) (db : Db) : Brief (apiGatewayHandle attempt connected stamp command db).1 := by
  cases command with
  | ping => trivial
  | unknown => exact (by decide : width "unknown command" ≤ 40)
  | createNewOrder items =>
    change Brief (cmdCreateShipment attempt connected stamp items db).1
    rw [cmdCreateShipment.eq_def]
    split
    · exact (by decide : width "database not connected" ≤ 40)
    split
    · exact (by decide : width "items array required" ≤ 40)
    · exact (by decide : width "items array required" ≤ 40)
    dsimp only
    split
    · exact (by decide : width "failed to create transaction" ≤ 40)
    · intro id hid
      obtain ⟨hubId, -, rfl⟩ := Option.map_eq_some_iff.mp hid
      exact width_safeStrcpy_le idSize (by decide) hubId
  | getShipmentStatus args =>
    change Brief (cmdGetShipmentStatus attempt connected args db).1
    rw [cmdGetShipmentStatus.eq_def]
    split
    · exact (by decide : width "database not connected" ≤ 40)
    split
    · exact (by decide : width "args (transaction_id) required" ≤ 40)
    · exact (by decide : width "args (transaction_id) required" ≤ 40)
    split
    · exact (by decide : width "transaction not found" ≤ 40)
    dsimp only
    split
    · exact (by decide : width "transaction not found" ≤ 40)
    · next status _ =>
      change width (ApiGateway.statusText status) ≤ 40
      cases status <;> decide

variable {status : String}

theorem length_status_le {data : Json} (hstatus : width status ≤ 7) (hdata : (printUnformatted data).length ≤ 180) :
    (printUnformatted (.object [("status", .string status), ("data", data)])).length ≤ 206 :=
  length_object_le ["status", "data"] [7, 180] rfl (by decide) (.cons hstatus (.cons hdata .nil)) (by decide)

theorem length_message_object_le (h : width message ≤ 40) :
    (printUnformatted (.object [("message", .string message)] : Json)).length ≤ 180 :=
  length_object_le ["message"] [40] rfl (by decide) (.cons h .nil) (by decide)

theorem length_replyPayload_le {reply : Reply} (h : Brief reply) :
    (printUnformatted (replyPayload reply)).length ≤ 206 := by
  have herror : width "error" ≤ 7 := by decide
  have hok : width "ok" ≤ 7 := by decide
  cases reply with
  | error message => exact length_status_le herror (length_message_object_le h)
  | pong => exact length_status_le hok (length_message_object_le (by decide))
  | order hubId id =>
    have hid := length_inInteger (inInteger_asInt id)
    cases hubId with
    | none =>
      have htext : (printUnformatted (.string "pending" : Json)).length ≤ 9 := by decide
      exact length_status_le hok (length_object_le ["status", "transaction_id"] [9, 11] rfl (by decide)
        (.cons htext (.cons hid .nil)) (by decide))
    | some hubId =>
      have htext : (printUnformatted (.string "assigned" : Json)).length ≤ 10 := by decide
      exact length_status_le hok (length_object_le ["status", "dispatch_hub_id", "transaction_id"] [10, 92, 11] rfl
        (by decide) (.cons htext (.cons (h hubId rfl) (.cons hid .nil))) (by decide))
  | status text => exact length_object_le ["status"] [40] rfl (by decide) (.cons h .nil) (by decide)

theorem fits_buildResponseJson {printPreallocated : Json → Nat → Option String} {req : Message}
    {reply : Reply} (hstamp : stamp.length < timestampSize) (hreply : Brief reply)
    (h : buildResponseJson printPreallocated req stamp reply = some text) : Fits text := by
  obtain ⟨-, -, rfl⟩ := Option.map_eq_some_iff.mp h
  have hpayload := length_replyPayload_le hreply
  obtain ⟨h₁, h₂, h₃, h₄, h₅, h₆⟩ := width_commandResponse req hstamp
  have htype : (printUnformatted (.string "SERVER_TO_GATEWAY__COMMAND_RESPONSE" : Json)).length ≤ 37 := by decide
  refine fits_take (by decide) (Nat.lt_succ_of_le ?_)
  rw [serializeMessage]
  cases findHandler (commandResponse req stamp).msgType.text <;>
    exact length_object_le ["msg_type", "source_role", "source_id", "target_role", "target_id", "timestamp", "checksum",
    "payload"] [37, 92, 92, 92, 92, 188, 44, 206] rfl (by decide) (.cons htype (.cons h₁ (.cons h₂ (.cons h₃ (.cons h₄
      (.cons h₅ (.cons h₆ (.cons hpayload .nil)))))))) (by decide)

/-- What the gateway plugin answers always fits, and what the admin plugin answers fits exactly when the page or the
inventory that it shows is short enough. -/
theorem plugin_responses_fit_iff (printPreallocated : Json → Nat → Option String) (parse : String → Option Json)
    (connected : Bool) (rawJson : String) : (∀ c : Content, Fits (adminCliHandle parse c connected rawJson).2 ↔
      ∀ root, parse rawJson = some root → connected = true →
        Room c (((root.item "payload").getD .null).textItem "command")
          (((root.item "payload").getD .null).textItem "args")) ∧
      ∀ (attempt : Nat → InventoryManager.Attempt) (stamp : String) (db : Db), stamp.length < timestampSize →
        ∀ text, gatewayResponse printPreallocated parse attempt connected stamp rawJson db = some text → Fits text := by
  refine ⟨fun c => fits_adminCliHandle_iff parse connected rawJson, fun attempt stamp db hstamp text htext => ?_⟩
  obtain ⟨root, -, hroot⟩ := Option.bind_eq_some_iff.mp htext
  exact fits_buildResponseJson hstamp (brief_apiGatewayHandle attempt connected stamp _ db) hroot

def longNames (n : Nat) : List Credential :=
  (range n).map fun k => ⟨String.ofList (replicate 62 'w' ++ [k.digitChar]), "secret", "WAREHOUSE", true⟩

def contentWith (credentials : Credentials) : Content where
  credentials := credentials
  db := Scenario.emptyDb
  collate _ _ := true
  stampText _ := "2025-01-01 00:00:00"
  answers _ := true

def tenClients : Content := contentWith ⟨longNames 10, by decide +kernel⟩

def nineClients : Content := contentWith ⟨longNames 9, by decide +kernel⟩

def clientsCommand : Json := .object [("payload", .object [("command", .string "clients")])]

theorem clientRows_contentWith (n : Nat) (hkeys) :
    clientRows (contentWith ⟨longNames n, hkeys⟩) none = longNames n := by
  have hactive : (longNames n).filter (fun row => row.isActive = filterActive none) = longNames n := by
    refine filter_eq_self.mpr fun row hrow => ?_
    obtain ⟨k, -, rfl⟩ := mem_map.mp hrow
    rfl
  exact (mergeSort_of_pairwise (pairwise_of_forall fun _ _ => rfl)).trans hactive

theorem clientsCommand_items : ((clientsCommand.item "payload").getD .null).textItem "args" = none ∧
    ((clientsCommand.item "payload").getD .null).textItem "command" = some "clients" := ⟨rfl, rfl⟩

theorem nine_clients_fit : Fits (adminCliHandle (fun _ => some clientsCommand) nineClients true "").2 := by
  refine ((plugin_responses_fit_iff (fun _ _ => none) (fun _ => some clientsCommand) true "").1 nineClients).mpr ?_
  rintro root hroot -
  obtain rfl := Option.some.inj hroot
  rw [clientsCommand_items.1, clientsCommand_items.2]
  refine ⟨fun _ => ?_, fun h => absurd h (by decide), fun h => absurd h (by decide)⟩
  rw [nineClients, clientRows_contentWith]
  exact fun _ _ _ => by decide +kernel

theorem cmdClients_tenClients :
    cmdClients tenClients true none = buildPaged "clients" ((longNames 10).map clientJson) ⟨1, 1, 10, 0⟩ := by
  have hpage : paginate clientsPageSize (asInt (longNames 10).length) (parseIntArg none "page " 1) = ⟨1, 1, 10, 0⟩ := by
    rfl
  have hrows : (if tenClients.answers 1 then limitOffset (longNames 10) clientsPageSize 0 else none) =
      some (longNames 10) := rfl
  rw [cmdClients, if_neg (by decide), tenClients, clientRows_contentWith, ← tenClients, listPage, if_neg (by decide)]
  simp only [hpage, hrows]

/-- The frame and the slot are too short for the page. -/
theorem ten_clients_overflow : (adminCliHandle (fun _ => some clientsCommand) tenClients true "").1 = 0 ∧
    bufferSize < (adminCliHandle (fun _ => some clientsCommand) tenClients true "").2.length ∧
      ¬ Fits (adminCliHandle (fun _ => some clientsCommand) tenClients true "").2 := by
  have hhandle : adminCliHandle (fun _ => some clientsCommand) tenClients true "" = cmdClients tenClients true none := by
    simp only [adminCliHandle, clientsCommand_items]
    rw [if_neg (by decide), if_pos trivial]
  have hlong : bufferSize < (buildPaged "clients" ((longNames 10).map clientJson) ⟨1, 1, 10, 0⟩).2.length := by
    have hlengths : ((longNames 10).map clientJson).map (fun item => (printUnformatted item).length) =
        (longNames 10).map clientLength := by
      rw [map_map]
      exact map_congr_left fun row _ => length_clientJson row
    rw [buildPaged, snprintf, length_take, length_buildPaged (by decide), hlengths]
    decide +kernel
  rw [hhandle, cmdClients_tenClients]
  exact ⟨rfl, hlong, fun h => absurd h.bounded (Nat.not_le_of_lt hlong)⟩

end Logistics.AdminCli
