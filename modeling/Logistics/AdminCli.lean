import Logistics.MessageSize

namespace Logistics.AdminCli

open JsonManager JsonText Deserialize Database AuthModule Serialize

def clientsPageSize : Nat := 10

def transactionsPageSize : Nat := 3

def cmdTokenBufSize : Nat := 64

def adminResponseMax : Nat := 4096

/-- What the connection of the plugin shows: the tables, the collation by which
`ORDER BY` sorts texts, the text of a timestamp, and which of the statements of a
command are answered. -/
structure Content where
  credentials : Credentials
  db : Db
  collate : String → String → Bool
  stampText : Int → String
  answers : Nat → Bool

def asInt (n : Int) : Int := n.bmod (2 ^ 32)

def strstr (key : List Char) : List Char → Option (List Char)
  | [] => if key = [] then some [] else none
  | c :: text => if key.isPrefixOf (c :: text) then some (c :: text) else strstr key text

def digitsValue (text : List Char) : Nat :=
  (text.takeWhile Char.isDigit).foldl (fun n c => 10 * n + (c.toNat - '0'.toNat)) 0

/-- `strtol` stops at the ends of `long`, and the result is cut to an `int`. -/
def atoi (text : List Char) : Int :=
  match text.dropWhile fun c => c = ' ' ∨ 9 ≤ c.toNat ∧ c.toNat ≤ 13 with
  | '-' :: digits => asInt (-(min (digitsValue digits : Int) (2 ^ 63)))
  | '+' :: digits => asInt (min (digitsValue digits) (2 ^ 63 - 1))
  | digits => asInt (min (digitsValue digits) (2 ^ 63 - 1))

def argument (args : Option String) (key : String) : Option (List Char) :=
  (args.bind fun args => strstr key.toList args.toList).map fun p => (p.drop key.length).dropWhile (· = ' ')

def parseIntArg (args : Option String) (key : String) (defaultVal : Int) : Int :=
  match argument args key with
  | none | some [] => defaultVal
  | some p => if 0 < atoi p then atoi p else defaultVal

def parseStrArg (args : Option String) (key : String) (bufLen : Nat) : Option (List Char) :=
  match argument args key with
  | none | some [] => none
  | some p => some ((p.takeWhile (· ≠ ' ')).take (bufLen - 1))

abbrev Response := Int × List Char

def snprintf (tree : Json) : List Char := (printUnformatted tree).take (adminResponseMax - 1)

def buildError (message : String) : Response :=
  (-1, snprintf (.object [("status", .string "error"), ("message", .string message)]))

structure Page where
  page : Int
  totalPages : Int
  total : Int
  offset : Int

def paginate (size total page : Int) : Page :=
  let totalPages := (asInt (total + size - 1)).tdiv size
  let totalPages := if totalPages = 0 then 1 else totalPages
  let page := if totalPages < page then totalPages else page
  ⟨page, totalPages, total, asInt ((page - 1) * size)⟩

def buildPaged (key : String) (data : List Json) (p : Page) : Response :=
  (0, snprintf (.object [("status", .string "ok"), ("page", .number p.page), ("total_pages", .number p.totalPages),
    ("total", .number p.total), (key, .array data)]))

def buildOk (key : String) (data : Json) : Response := (0, snprintf (.object [("status", .string "ok"), (key, data)]))

def commands : List (String × String) :=
  [("help", "Show available commands"), ("clients", "List clients (args: [active true|false] [page N])"),
    ("inventory", "Get inventory for a client (args: <client_id>)"),
    ("transactions", "List transactions (args: [<client_id>|all] [page N])")]

def cmdHelp : Response :=
  buildOk "commands" (.array (commands.map fun c =>
    .object [("command", .string c.1), ("description", .string c.2)]))

def limitOffset {ρ : Type} (rows : List ρ) (limit : Nat) (offset : Int) : Option (List ρ) :=
  if offset < 0 then none else some ((rows.drop offset.toNat).take limit)

def clientJson (row : Credential) : Json :=
  .object [("username", .string row.username), ("type", .string row.clientType)]

def listPage {ρ : Type} (c : Content) (key : String) (size : Nat) (rows : List ρ) (json : ρ → Json) (page : Int) :
    Response :=
  if c.answers 0 = false then buildError "query failed"
  else
    let p := paginate size (asInt rows.length) page
    match if c.answers 1 then limitOffset rows size p.offset else none with
    | none => buildError "query failed"
    | some rows => buildPaged key (rows.map json) p

def filterActive (args : Option String) : Bool :=
  match parseStrArg args "active " 8 with
  | none => true
  | some value => value ≠ "false".toList ∧ value ≠ "0".toList

def clientRows (c : Content) (args : Option String) : List Credential :=
  (c.credentials.rows.filter fun row => row.isActive = filterActive args).mergeSort
    fun a b => c.collate a.username b.username

def cmdClients (c : Content) (connected : Bool) (args : Option String) : Response :=
  if connected = false then buildError "no database connection"
  else listPage c "clients" clientsPageSize (clientRows c args) clientJson (parseIntArg args "page " 1)

def quantityFields (q : Quantities) : List (String × Json) :=
  (List.finRange 6).map fun j => (itemNames j, .number (asInt (q j)))

def inventoryJson (c : Content) (clientId : String) (row : InventoryRow) : Json :=
  .object ([("client_id", .string clientId), ("client_type", .string row.clientType)] ++ quantityFields row.stock ++
    [("last_updated", .string (c.stampText row.lastUpdated))])

def cmdInventory (c : Content) (connected : Bool) (clientId : Option String) : Response :=
  if connected = false then buildError "no database connection"
  else
    match clientId with
    | none | some "" => buildError "inventory requires args: client_id"
    | some clientId =>
      if c.answers 0 = false then buildError "query failed"
      else
        match c.db.inventory.find? clientId with
        | none => buildError "client not found"
        | some row => buildOk "inventory" (inventoryJson c clientId row)

def typeText : TransactionType → String
  | .stockRequest => "STOCK_REQUEST"
  | .replenish => "REPLENISH"
  | .orderDispatch => "ORDER_DISPATCH"

def statusText : Status → String
  | .pending => "PENDING"
  | .assigned => "ASSIGNED"
  | .dispatched => "DISPATCHED"
  | .completed => "COMPLETED"

def transactionJson (t : TransactionRow) : Json :=
  .object ([("id", .number (asInt t.transactionId)), ("type", .string (typeText t.transactionType)),
    ("src", .string (t.sourceId.getD "")), ("dst", .string t.destinationId),
    ("status", .string (statusText t.status))] ++ quantityFields t.quantities)

def clientFilter (args : Option String) : Option String :=
  let first := (((args.getD "").toList.dropWhile (· = ' ')).takeWhile (· ≠ ' ')).take (cmdTokenBufSize - 1)
  if first = "all".toList ∨ first = "page".toList ∨ first = [] then none else some (String.ofList first)

def transactionRows (c : Content) (args : Option String) : List TransactionRow :=
  let rows := match clientFilter args with
    | none => c.db.transactions.rows
    | some client => c.db.transactions.rows.filter fun t => t.sourceId = some client ∨ t.destinationId = client
  rows.mergeSort fun a b => b.transactionId ≤ a.transactionId

def cmdTransactions (c : Content) (connected : Bool) (args : Option String) : Response :=
  if connected = false then buildError "no database connection"
  else
    listPage c "transactions" transactionsPageSize (transactionRows c args) transactionJson
      (parseIntArg args "page " 1)

def adminCliHandle (parse : String → Option Json) (c : Content) (connected : Bool) (rawJson : String) : Response :=
  match parse rawJson with
  | none => buildError "invalid JSON"
  | some root =>
    let payload := (root.item "payload").getD .null
    let args := payload.textItem "args"
    match payload.textItem "command" with
    | none => buildError "missing payload.command"
    | some command =>
      if command = "help" then cmdHelp
      else if command = "clients" then cmdClients c connected args
      else if command = "inventory" then cmdInventory c connected args
      else if command = "transactions" then cmdTransactions c connected args
      else buildError "unknown command"

end Logistics.AdminCli
