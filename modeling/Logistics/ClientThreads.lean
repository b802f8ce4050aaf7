import Logistics.ClientSpec
import Logistics.Deserialize
import Logistics.Reachability

namespace Logistics.ClientThreads

open JsonManager Client List Function Option Deserialize

structure AckConfig extends TimerConfig where
  ackTimeoutMs : Int
  maxRetries : Int

structure Tagged where
  id : Nat
  message : Message

structure PendingAck where
  sendTime : Nat
  retryCount : Nat
  kept : Tagged

def PendingAck.msgId (a : PendingAck) : String := a.kept.message.timestamp

def PendingAck.msgType (a : PendingAck) : MsgType := a.kept.message.msgType

theorem msgIds_update {acks : Fin maxPendingAcks → Option PendingAck} {texts : Fin maxPendingAcks → Option String}
    (h : (fun i => (acks i).map PendingAck.msgId) = texts) (i : Fin maxPendingAcks) (a : Option PendingAck) :
    (fun j => (update acks i a j).map PendingAck.msgId) = update texts i (a.map PendingAck.msgId) := by
  subst h
  exact comp_update (Option.map PendingAck.msgId) acks i a

structure Memory where
  data : SharedData
  queue : List Tagged
  queued : queue.map Tagged.message = data.pendingMessages
  acks : Fin maxPendingAcks → Option PendingAck
  tracked : (fun i => (acks i).map PendingAck.msgId) = data.pendingAcks
  emergencyActive : Bool

namespace Memory

variable {m : Memory}

def keeps (m : Memory) (i : Fin maxPendingAcks) : Option Tagged := (m.acks i).map PendingAck.kept

def enqueuePendingMessage (m : Memory) (t : Tagged) : Option Memory :=
  if h : m.data.pendingMessages.length < maxPendingMessages then
    some { m with
      data := { m.data with
        pendingMessages := m.data.pendingMessages ++ [t.message]
        bounded := length_append.le.trans (Nat.succ_le_of_lt h) }
      queue := m.queue ++ [t]
      queued := by rw [map_append, m.queued, map_singleton] }
  else none

def dropFirst (m : Memory) : Memory :=
  { m with
    data := { m.data with
      pendingMessages := m.data.pendingMessages.tail
      bounded := (tail_sublist _).length_le.trans m.data.bounded }
    queue := m.queue.tail
    queued := by rw [map_tail, m.queued] }

def popPendingMessage (m : Memory) : Option (Tagged × Memory) := m.queue.head?.map fun t => (t, m.dropFirst)

def setAck (m : Memory) (i : Fin maxPendingAcks) (a : Option PendingAck) : Memory :=
  { m with
    data := { m.data with pendingAcks := update m.data.pendingAcks i (a.map PendingAck.msgId) }
    acks := update m.acks i a
    tracked := msgIds_update m.tracked i a }

def slotOf (m : Memory) (msgId : String) : Option (Fin maxPendingAcks) :=
  (finRange maxPendingAcks).find? fun i => (m.acks i).map PendingAck.msgId = some msgId

def removePendingAck (m : Memory) (msgId : String) : Memory :=
  match m.slotOf msgId with
  | none => m
  | some i => m.setAck i none

def addPendingAck (m : Memory) (now : Nat) (t : Tagged) : Memory :=
  match (finRange maxPendingAcks).find? fun i => (m.acks i).map PendingAck.msgId = some t.message.timestamp ∧
      (m.acks i).map PendingAck.msgType = some t.message.msgType with
  | some i => m.setAck i ((m.acks i).map fun a => { a with sendTime := now })
  | none =>
    match (finRange maxPendingAcks).find? fun i => (m.acks i).isNone with
    | some i => m.setAck i (some ⟨now, 0, t⟩)
    | none => m

def checkSlots (cfg : AckConfig) (now : Nat) : List (Fin maxPendingAcks) → Int → Memory → Int × Memory
  | [], needsRetransmission, m => (needsRetransmission, m)
  | i :: rest, needsRetransmission, m =>
    match m.acks i with
    | none => checkSlots cfg now rest needsRetransmission m
    | some a =>
      if (now : Int) - a.sendTime < cfg.ackTimeoutMs then checkSlots cfg now rest needsRetransmission m
      else if (a.retryCount : Int) + 1 < cfg.maxRetries then
        checkSlots cfg now rest 1 (m.setAck i (some { a with retryCount := a.retryCount + 1, sendTime := now }))
      else (-1, m.setAck i (some { a with retryCount := a.retryCount + 1 }))

def checkAckTimeouts (cfg : AckConfig) (now : Nat) (m : Memory) : Int × Memory :=
  checkSlots cfg now (finRange maxPendingAcks) 0 m

def collectRetryableMessages (m : Memory) : List Tagged :=
  (finRange maxPendingAcks).filterMap fun i =>
    (m.acks i).bind fun a => if 0 < a.retryCount then some a.kept else none

def modifyInventory (m : Memory) (items : Items) (operation : InventoryOperation) : Memory :=
  { m with data := m.data.modifyInventory items operation, queued := m.queued, tracked := m.tracked }

def markPendingStockRequests (m : Memory) (indices : List (Fin 6)) : Memory :=
  { m with data := m.data.markPendingStockRequests indices, queued := m.queued, tracked := m.tracked }

def clearPendingStockRequests (m : Memory) (items : Items) : Memory :=
  { m with data := m.data.clearPendingStockRequests items, queued := m.queued, tracked := m.tracked }

def getInventorySnapshot (m : Memory) : Items := fun i => ⟨(i.val : Int) + 1, itemNames i, m.data.inventoryItem i⟩

variable {t : Tagged}

theorem of_enqueuePendingMessage {m' : Memory} (h : m.enqueuePendingMessage t = some m') : m'.queue = m.queue ++ [t] ∧
    m'.acks = m.acks ∧ m'.data.pendingStockRequest = m.data.pendingStockRequest := by
  unfold enqueuePendingMessage at h
  split at h
  · cases h
    exact ⟨rfl, rfl, rfl⟩
  · cases h

theorem queue_of_popPendingMessage {m' : Memory} (h : m.popPendingMessage = some (t, m')) :
    m.queue = t :: m'.queue ∧ m' = m.dropFirst := by
  obtain ⟨u, hu, hpair⟩ := map_eq_some_iff.mp h
  cases hpair
  refine ⟨?_, rfl⟩
  cases hq : m.queue with
  | nil => rw [hq] at hu; cases hu
  | cons v rest =>
    rw [hq] at hu
    cases hu
    exact congrArg (cons t) (congrArg tail hq).symm

theorem keeps_setAck (i j : Fin maxPendingAcks) (a : Option PendingAck) :
    (m.setAck i a).keeps j = if j = i then a.map PendingAck.kept else m.keeps j := by
  change (update m.acks i a j).map PendingAck.kept = _
  by_cases hj : j = i
  · rw [if_pos hj, hj, update_self]
  · rw [if_neg hj, update_of_ne hj, keeps]

structure Apart (m m' : Memory) : Prop where
  queue : m'.queue = m.queue
  flags : m'.data.pendingStockRequest = m.data.pendingStockRequest

theorem apart_removePendingAck (m : Memory) (msgId : String) : Apart m (m.removePendingAck msgId) := by
  unfold removePendingAck
  split <;> exact ⟨rfl, rfl⟩

theorem apart_addPendingAck (m : Memory) (now : Nat) (t : Tagged) : Apart m (m.addPendingAck now t) := by
  unfold addPendingAck
  split
  · exact ⟨rfl, rfl⟩
  · split <;> exact ⟨rfl, rfl⟩

theorem keeps_removePendingAck (m : Memory) (msgId : String) (i : Fin maxPendingAcks) :
    (m.removePendingAck msgId).keeps i = if m.slotOf msgId = some i then none else m.keeps i := by
  unfold removePendingAck
  cases h : m.slotOf msgId with
  | none => rfl
  | some j => simp only [keeps_setAck, some.injEq, map_none, eq_comm]

theorem of_slotOf {msgId : String} {i : Fin maxPendingAcks} (h : m.slotOf msgId = some i) :
    ∃ t, m.keeps i = some t ∧ t.message.timestamp = msgId := by
  have hfound := find?_some h
  obtain ⟨a, ha, hid⟩ := map_eq_some_iff.mp (of_decide_eq_true hfound)
  exact ⟨a.kept, by rw [keeps, ha]; rfl, hid⟩

theorem keeps_addPendingAck (m : Memory) (now : Nat) (t : Tagged) (i : Fin maxPendingAcks) :
    (m.addPendingAck now t).keeps i = m.keeps i ∨ m.keeps i = none ∧ (m.addPendingAck now t).keeps i = some t := by
  unfold addPendingAck
  split
  · rename_i j _
    rw [keeps_setAck]
    split
    · rename_i hij
      rw [hij, Option.map_map]
      exact .inl rfl
    · exact .inl rfl
  · split
    · rename_i j hj
      have hfound := find?_some hj
      have hfree : m.acks j = none := isNone_iff_eq_none.mp hfound
      rw [keeps_setAck]
      split
      · rename_i hij
        exact .inr ⟨by rw [hij, keeps, hfree]; rfl, rfl⟩
      · exact .inl rfl
    · exact .inl rfl

theorem checkSlots_spec (cfg : AckConfig) (now : Nat) (slots : List (Fin maxPendingAcks)) (needs : Int) (m : Memory) :
    Apart m (checkSlots cfg now slots needs m).2 ∧ (checkSlots cfg now slots needs m).2.keeps = m.keeps := by
  induction slots generalizing needs m with
  | nil => exact ⟨⟨rfl, rfl⟩, rfl⟩
  | cons i rest ih =>
    have hsame : ∀ {a b : PendingAck}, m.acks i = some a → b.kept = a.kept → (m.setAck i (some b)).keeps = m.keeps := by
      intro a b ha hb
      funext j
      rw [keeps_setAck]
      split
      · rename_i hj
        rw [hj, keeps, ha, map_some, map_some, hb]
      · rfl
    unfold checkSlots
    cases ha : m.acks i with
    | none => exact ih needs m
    | some a =>
      simp only
      split_ifs
      · exact ih needs m
      · obtain ⟨⟨hq, hf⟩, hk⟩ := ih 1 (m.setAck i (some { a with retryCount := a.retryCount + 1, sendTime := now }))
        exact ⟨⟨hq, hf⟩, hk.trans (hsame ha rfl)⟩
      · exact ⟨⟨rfl, rfl⟩, hsame ha rfl⟩

theorem mem_collectRetryableMessages (h : t ∈ m.collectRetryableMessages) : ∃ i, m.keeps i = some t := by
  obtain ⟨i, -, hi⟩ := mem_filterMap.mp h
  obtain ⟨a, ha, hkept⟩ := bind_eq_some_iff.mp hi
  split at hkept
  · exact ⟨i, by rw [keeps, ha]; exact hkept⟩
  · cases hkept

end Memory

def alive : String := "ALIVE"
def emergencyCodeNone : Int := 0

def createKeepaliveMessage (sourceRole sourceId message timestamp : String) : Message :=
  createMessage (if sourceRole = hub then .hubToServerKeepalive else .warehouseToServerKeepalive) sourceRole sourceId
    server server (.keepalive (safeStrcpy descriptionSize message)) timestamp

def createClientEmergencyMessage (sourceRole sourceId : String) (emergencyCode : Int)
    (emergencyType timestamp : String) : Message :=
  createMessage (if sourceRole = hub then .hubToServerEmergencyAlert else .warehouseToServerEmergencyAlert) sourceRole
    sourceId server server (.clientEmergency emergencyCode (safeStrcpy emergencyTypeSize emergencyType)) timestamp

inductive Letter
  | acknowledgment (msgTimestamp : String)
  | answer (msg : Message)
  | keepalive
  | inventoryUpdate (items : Items)
  | emergencyAlert (emergencyCode : Int) (emergencyType : String)
  | stockRequest (msgType : MsgType) (lowItems : List Item)

def answerTo (clientRole clientId : String) (msg : Message) (stamp : String) : Option Message :=
  match msg.msgType with
  | .serverToWarehouseOrderToDispatchStockToHub => shipmentNotice clientId msg stamp
  | .serverToHubOrderToDispatchStock => dispatchConfirmation clientId msg stamp
  | _ => receiptConfirmation clientRole clientId msg stamp

def Letter.write (clientRole clientId stamp : String) : Letter → Option Message
  | .acknowledgment msgTimestamp => createAcknowledgmentMessage clientRole clientId server server msgTimestamp ok stamp
  | .answer msg => answerTo clientRole clientId msg stamp
  | .keepalive => some (createKeepaliveMessage clientRole clientId alive stamp)
  | .inventoryUpdate items =>
    createItemsMessage (if clientRole = hub then .hubToServerInventoryUpdate else .warehouseToServerInventoryUpdate)
      clientId server items 6 none stamp
  | .emergencyAlert emergencyCode emergencyType =>
    some (createClientEmergencyMessage clientRole clientId emergencyCode emergencyType stamp)
  | .stockRequest msgType lowItems =>
    createItemsMessage msgType clientId server (buildFullRequestPayload lowItems) 6 none stamp

inductive Instr
  | post (letter : Letter)
  | modify (items : Items) (operation : InventoryOperation)
  | clear (items : Items)
  | report (msgType : MsgType)
  | mark (indices : List (Fin 6))
  | remove (acked : Tagged)
  | snapshot
  | survey (amounts : Quantities)
  | alarm (emergencyCode : Int) (emergencyType : String)
  | raise

def script (msg : Message) : List Instr :=
  let items := msg.items.items
  let acknowledge := Instr.post (.acknowledgment msg.timestamp)
  match msg.msgType with
  | .serverToWarehouseAuthResponse | .serverToHubAuthResponse => [acknowledge]
  | .serverToWarehouseInventoryUpdate | .serverToHubInventoryUpdate => [.modify items .add, acknowledge]
  | .serverToWarehouseOrderToDispatchStockToHub =>
    [acknowledge, .modify items .reduce, .post (.answer msg), .report .warehouseToServerReplenishRequest]
  | .serverToHubOrderToDispatchStock => [acknowledge, .modify items .reduce, .post (.answer msg)]
  | .serverToWarehouseRestockNotice | .serverToHubIncomingStockNotice =>
    [acknowledge, .modify items .add, .clear items, .post (.answer msg)]
  | _ => []

inductive Task
  | inventoryUpdate
  | consume (amounts : Quantities)
  | emergencyCheck (emergencyCode : Int) (emergencyType : String)

def Task.script (clientRole : String) : Task → List Instr
  | .inventoryUpdate => [.post .keepalive, .snapshot]
  | .consume amounts => if clientRole = hub then [.survey amounts, .report .hubToServerStockRequest] else []
  | .emergencyCheck emergencyCode emergencyType =>
    if emergencyCode = emergencyCodeNone then [] else [.alarm emergencyCode emergencyType]

inductive Sender
  | idle
  | popped (t : Tagged)
  | sent (t : Tagged)

inductive Checker
  | idle
  | expired
  | requeueing (batch : List Tagged)
  | stopped

inductive Note
  | enqueued (msg : Message)
  | delivered (items : Items)

def Note.message : Note → Option Message
  | .enqueued msg => some msg
  | .delivered _ => none

structure Threads where
  memory : Memory
  receiver : List Instr
  child : List Instr
  sender : Sender
  checker : Checker
  handed : List Tagged
  history : List Note

def Threads.created (c : Threads) : List Message := c.history.filterMap Note.message

def Threads.post (c : Threads) (letter : Letter) (stamp : String) : Option Threads :=
  (letter.write c.memory.data.clientRole c.memory.data.clientId stamp).bind fun msg =>
    (c.memory.enqueuePendingMessage ⟨c.created.length, msg⟩).map fun m =>
      { c with memory := m, history := c.history ++ [.enqueued msg] }

def itemsToReduce (m : Memory) (amounts : Quantities) : Items :=
  fun i => { m.getInventorySnapshot i with quantity := if 0 < m.data.inventoryItem i then amounts i else 0 }

/-- One instruction, and what is left of the handler after it. A message that cannot
be created or enqueued ends the handler. -/
def Instr.exec (cfg : AckConfig) (stamp : String) (c : Threads) (rest : List Instr) : Instr → Threads × List Instr
  | .post letter =>
    match c.post letter stamp with
    | none => (c, [])
    | some c' => (c', rest)
  | .modify items operation => ({ c with memory := c.memory.modifyInventory items operation }, rest)
  | .clear items =>
    ({ c with
      memory := c.memory.clearPendingStockRequests items
      history := c.history ++ [.delivered items] }, rest)
  | .report msgType =>
    let low := c.memory.data.getLowStockReport cfg.toTimerConfig
    (c, if low = [] then rest else .post (.stockRequest msgType (low.map Prod.fst)) :: .mark (low.map Prod.snd) :: rest)
  | .mark indices => ({ c with memory := c.memory.markPendingStockRequests indices }, rest)
  | .remove acked => ({ c with memory := c.memory.removePendingAck acked.message.timestamp }, rest)
  | .snapshot => (c, .post (.inventoryUpdate c.memory.getInventorySnapshot) :: rest)
  | .survey amounts =>
    (c, if ∃ i, 0 < c.memory.data.inventoryItem i then .modify (itemsToReduce c.memory amounts) .reduce :: rest
      else rest)
  | .alarm emergencyCode emergencyType =>
    (c, if c.memory.emergencyActive then [] else .post (.emergencyAlert emergencyCode emergencyType) :: .raise :: rest)
  | .raise => ({ c with memory := { c.memory with emergencyActive := true } }, rest)

def tracks (msgType : MsgType) : Prop :=
  ¬ isAck msgType ∧ ¬ "AUTH_REQUEST".toList <:+: msgType.text.toList ∧ ¬ "KEEPALIVE".toList <:+: msgType.text.toList

instance : DecidablePred tracks := fun _ => inferInstanceAs (Decidable (_ ∧ _ ∧ _))

/-- Steps of the receiver, the child, the sender and the checker. The server
acknowledges messages that it was sent: `receiveAck n` is its acknowledgement of the
one that was handed to `client_send` after `n` others. A thread may begin another
round at any time, whether `should_exit` is set or not. -/
inductive Event
  | receive (msg : Message)
  | receiveAck (n : Nat)
  | receiver (stamp : String)
  | timer (task : Task)
  | child (stamp : String)
  | pop
  | send (sent : Bool)
  | track (now : Nat)
  | check (now : Nat)
  | collect
  | requeue

def step (cfg : AckConfig) (c : Threads) : Event → Threads
  | .receive msg => if c.receiver.isEmpty ∧ ¬ isAck msg.msgType then { c with receiver := script msg } else c
  | .receiveAck n =>
    match c.handed[n]? with
    | some acked =>
      if c.receiver.isEmpty ∧ ¬ isAck acked.message.msgType then { c with receiver := [.remove acked] } else c
    | none => c
  | .receiver stamp =>
    match c.receiver with
    | [] => c
    | instr :: rest => { (instr.exec cfg stamp c rest).1 with receiver := (instr.exec cfg stamp c rest).2 }
  | .timer task => if c.child.isEmpty then { c with child := task.script c.memory.data.clientRole } else c
  | .child stamp =>
    match c.child with
    | [] => c
    | instr :: rest => { (instr.exec cfg stamp c rest).1 with child := (instr.exec cfg stamp c rest).2 }
  | .pop =>
    match c.sender, c.memory.popPendingMessage with
    | .idle, some (t, m) => { c with memory := m, sender := .popped t }
    | _, _ => c
  | .send sent =>
    match c.sender with
    | .popped t =>
      { c with
        handed := c.handed ++ [t]
        sender := if sent ∧ tracks t.message.msgType then .sent t else .idle }
    | _ => c
  | .track now =>
    match c.sender with
    | .sent t => { c with memory := c.memory.addPendingAck now t, sender := .idle }
    | _ => c
  | .check now =>
    match c.checker with
    | .idle =>
      let (result, m) := c.memory.checkAckTimeouts cfg now
      { c with
        memory := m
        checker := if result < 0 then .stopped else if 0 < result then .expired else .idle }
    | _ => c
  | .collect =>
    match c.checker with
    | .expired => { c with checker := .requeueing c.memory.collectRetryableMessages }
    | _ => c
  | .requeue =>
    match c.checker with
    | .requeueing [] => { c with checker := .idle }
    | .requeueing (t :: batch) =>
      { c with memory := (c.memory.enqueuePendingMessage t).getD c.memory, checker := .requeueing batch }
    | _ => c

def Memory.init (clientRole clientId : String) : Memory where
  data := ⟨safeStrcpy roleSize clientRole, safeStrcpy idSize clientId, 0, fun _ => false, [], Nat.zero_le _,
    fun _ => none, false⟩
  queue := []
  queued := rfl
  acks := fun _ => none
  tracked := rfl
  emergencyActive := false

def start (clientRole clientId : String) : Threads := ⟨.init clientRole clientId, [], [], .idle, .idle, [], []⟩

variable {cfg : AckConfig} {stamp : String} {c c' : Threads} {instr : Instr} {rest : List Instr} {t : Tagged}

inductive Effect (c : Threads) : Instr → Threads → Prop
  | quiet {instr : Instr} {m : Memory} {history : List Note} (hqueue : m.queue = c.memory.queue)
      (hacks : m.acks = c.memory.acks) (hcreated : history.filterMap Note.message = c.created) :
      Effect c instr { c with memory := m, history := history }
  | posted {letter : Letter} {msg : Message} {m : Memory}
      (h : c.memory.enqueuePendingMessage ⟨c.created.length, msg⟩ = some m) :
      Effect c (.post letter) { c with memory := m, history := c.history ++ [.enqueued msg] }
  | removed (acked : Tagged) :
      Effect c (.remove acked) { c with memory := c.memory.removePendingAck acked.message.timestamp }

theorem effect_exec (cfg : AckConfig) (stamp : String) (c : Threads) (rest : List Instr) (instr : Instr) :
    Effect c instr (instr.exec cfg stamp c rest).1 := by
  cases instr with
  | post letter =>
    cases hpost : c.post letter stamp with
    | none =>
      rw [Instr.exec, hpost]
      exact .quiet rfl rfl rfl
    | some c' =>
      obtain ⟨msg, -, hmap⟩ := bind_eq_some_iff.mp hpost
      obtain ⟨m, hm, rfl⟩ := map_eq_some_iff.mp hmap
      rw [Instr.exec, hpost]
      exact .posted hm
  | clear items =>
    refine .quiet rfl rfl ?_
    rw [filterMap_append]
    exact append_nil _
  | remove acked => exact .removed acked
  | modify | report | mark | snapshot | survey | alarm | raise => exact .quiet rfl rfl rfl

def Instr.Follows : Instr → Prop
  | .post _ | .modify _ _ | .mark _ | .raise => True
  | _ => False

theorem mem_rest {x : Instr} (h : x ∈ (instr.exec cfg stamp c rest).2) : x ∈ rest ∨ x.Follows := by
  have hcons {y : Instr} {l : List Instr} (h : x ∈ y :: l) (hy : y.Follows) (hl : x ∈ l → x ∈ rest ∨ x.Follows) :
      x ∈ rest ∨ x.Follows := by
    rcases mem_cons.mp h with rfl | h
    · exact .inr hy
    · exact hl h
  cases instr with
  | post letter =>
    rw [Instr.exec] at h
    split at h
    · cases h
    · exact .inl h
  | report msgType =>
    simp only [Instr.exec] at h
    split at h
    · exact .inl h
    · exact hcons h trivial (hcons · trivial .inl)
  | survey amounts =>
    simp only [Instr.exec] at h
    split at h
    · exact hcons h trivial .inl
    · exact .inl h
  | alarm emergencyCode emergencyType =>
    simp only [Instr.exec] at h
    split at h
    · cases h
    · exact hcons h trivial (hcons · trivial .inl)
  | snapshot => exact hcons h trivial .inl
  | modify | clear | mark | remove | raise => exact .inl h

theorem Effect.frame (h : Effect c instr c') : c' = { c with memory := c'.memory, history := c'.history } := by
  cases h <;> rfl

def isStockRequest (msgType : MsgType) : Prop :=
  msgType = .hubToServerStockRequest ∨ msgType = .warehouseToServerReplenishRequest

instance : DecidablePred isStockRequest := fun _ => inferInstanceAs (Decidable (_ ∨ _))

structure Fresh (work : List Instr) : Prop where
  mark : ∀ indices, .mark indices ∉ work
  report : ∀ msgType, .report msgType ∈ work → isStockRequest msgType

inductive Turn (cfg : AckConfig) (c : Threads) : Event → Threads → Prop
  | idle {e : Event} : Turn cfg c e c
  | receives {e : Event} {work : List Instr} (hacked : ∀ acked, .remove acked ∈ work → acked ∈ c.handed)
      (hfresh : Fresh work) : Turn cfg c e { c with receiver := work }
  | wakes {e : Event} {work : List Instr} (hacked : ∀ acked, .remove acked ∉ work)
      (hclear : ∀ items, .clear items ∉ work) (hfresh : Fresh work) : Turn cfg c e { c with child := work }
  | receiver {stamp : String} {instr : Instr} {rest : List Instr} (h : c.receiver = instr :: rest) :
      Turn cfg c (.receiver stamp)
        { (instr.exec cfg stamp c rest).1 with receiver := (instr.exec cfg stamp c rest).2 }
  | child {stamp : String} {instr : Instr} {rest : List Instr} (h : c.child = instr :: rest) :
      Turn cfg c (.child stamp) { (instr.exec cfg stamp c rest).1 with child := (instr.exec cfg stamp c rest).2 }
  | pop {t : Tagged} {queue : List Tagged} (h : c.sender = .idle) (hqueue : c.memory.queue = t :: queue) :
      Turn cfg c .pop { c with memory := c.memory.dropFirst, sender := .popped t }
  | send {sent : Bool} {t : Tagged} {sender : Sender} (h : c.sender = .popped t) (hs : sender = .sent t ∨ sender = .idle) :
      Turn cfg c (.send sent) { c with handed := c.handed ++ [t], sender := sender }
  | track {now : Nat} {t : Tagged} (h : c.sender = .sent t) :
      Turn cfg c (.track now) { c with memory := c.memory.addPendingAck now t, sender := .idle }
  | check {now : Nat} {checker : Checker} (h : c.checker = .idle) (hb : ∀ batch, checker ≠ .requeueing batch) :
      Turn cfg c (.check now) { c with memory := (c.memory.checkAckTimeouts cfg now).2, checker := checker }
  | collect (h : c.checker = .expired) :
      Turn cfg c .collect { c with checker := .requeueing c.memory.collectRetryableMessages }
  | requeue {t : Tagged} {batch : List Tagged} (h : c.checker = .requeueing (t :: batch)) :
      Turn cfg c .requeue
        { c with memory := (c.memory.enqueuePendingMessage t).getD c.memory, checker := .requeueing batch }
  | requeued : Turn cfg c .requeue { c with checker := .idle }

theorem fresh_nil : Fresh [] := ⟨fun _ => not_mem_nil, fun _ h => absurd h not_mem_nil⟩

theorem fresh_script (msg : Message) : Fresh (script msg) := by
  constructor
  · intro indices h
    unfold script at h
    split at h <;> simp at h
  · intro msgType h
    unfold script at h
    split at h <;> simp at h
    exact .inr h

theorem remove_not_mem_script (msg : Message) (acked : Tagged) : .remove acked ∉ script msg := by
  intro h
  unfold script at h
  split at h <;> simp at h

theorem turn_timer (task : Task) : Turn cfg c (.timer task) (step cfg c (.timer task)) := by
  simp only [step]
  split
  · cases task with
    | inventoryUpdate =>
      exact .wakes (by simp [Task.script]) (by simp [Task.script]) ⟨by simp [Task.script], by simp [Task.script]⟩
    | consume amounts =>
      rw [Task.script]
      split
      · exact .wakes (by simp) (by simp) ⟨by simp, by simp [isStockRequest]⟩
      · exact .wakes (by simp) (by simp) fresh_nil
    | emergencyCheck emergencyCode emergencyType =>
      rw [Task.script]
      split
      · exact .wakes (by simp) (by simp) fresh_nil
      · exact .wakes (by simp) (by simp) ⟨by simp, by simp⟩
  · exact .idle

theorem turn_step (cfg : AckConfig) (c : Threads) (e : Event) : Turn cfg c e (step cfg c e) := by
  cases e with
  | receive msg =>
    simp only [step]
    split
    · exact .receives (fun acked h => absurd h (remove_not_mem_script msg acked)) (fresh_script msg)
    · exact .idle
  | receiveAck n =>
    simp only [step]
    split
    · rename_i acked hacked
      split
      · refine .receives (fun u hu => ?_) ⟨by simp, by simp⟩
        cases mem_singleton.mp hu
        exact mem_of_getElem? hacked
      · exact .idle
    · exact .idle
  | timer task => exact turn_timer task
  | receiver stamp =>
    simp only [step]
    split
    · exact .idle
    · exact .receiver ‹_›
  | child stamp =>
    simp only [step]
    split
    · exact .idle
    · exact .child ‹_›
  | pop =>
    simp only [step]
    split
    · rename_i t m hidle hpop
      obtain ⟨hqueue, rfl⟩ := Memory.queue_of_popPendingMessage hpop
      exact .pop hidle hqueue
    · exact .idle
  | send sent =>
    simp only [step]
    split
    · refine .send ‹_› ?_
      split
      · exact .inl rfl
      · exact .inr rfl
    · exact .idle
  | track now =>
    simp only [step]
    split
    · exact .track ‹_›
    · exact .idle
  | check now =>
    simp only [step]
    split
    · refine .check ‹_› (fun batch hb => ?_)
      split_ifs at hb
    · exact .idle
  | collect =>
    simp only [step]
    split
    · exact .collect ‹_›
    · exact .idle
  | requeue =>
    simp only [step]
    split
    · exact .requeued
    · exact .requeue ‹_›
    · exact .idle

end Logistics.ClientThreads
