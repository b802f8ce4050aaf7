import Logistics.OrderRuns

namespace Logistics.OrderMatching

open KeyedTable JsonManager Database InventoryManager InventorySpec ApiGateway
open MessageHandler Idempotence

variable {db d : Db} {l : Letter} {t : TransactionRow} {o : Oracle} {stamp : String}

structure Answerable (o : Oracle) (stamp : String) (l : Letter) (db : Db) (t : TransactionRow) : Prop where
  mem : t ∈ db.transactions.rows
  awaits : Awaits t l
  short : l.client.length < idSize
  newest : Newest db l
  fault : ∀ i, (o.attempt i).fault = none
  accepted : Accepted o stamp l db

theorem Answerable.adjusts (h : Answerable o stamp l db t) : ∃ d ts,
    db.adjustInventory l.client (extractQuantities l.message.items.items)
      (l.message.msgType = .serverToHubIncomingStockNotice) (o.attempt 0).env.now = some d ∧
    (o.attempt 0).env.parseTimestamp stamp = some ts ∧ d.transactions = db.transactions := by
  have hfits := h.accepted.fits
  rw [safeStrcpy_of_length_lt h.short] at hfits
  obtain ⟨d, hd⟩ := Option.ne_none_iff_exists'.mp (adjustInventory_ne_none.mpr hfits)
  obtain ⟨ts, hts⟩ := Option.ne_none_iff_exists'.mp h.accepted.timestamp
  exact ⟨d, ts, hd, hts, (adjustInventory_transactions hd).1⟩

structure Reads (reply : Message) (l : Letter) (stamp : String) : Prop where
  sourceId : reply.delivered.sourceId = l.client
  timestamp : reply.delivered.timestamp = stamp
  quantities : extractQuantities reply.delivered.items.items = extractQuantities l.message.items.items

theorem Answerable.reads (h : Answerable o stamp l db t) {msgType : MsgType} {roles : String × String}
    (hroles : prefixRoles msgType.text = some roles) {targetId : String} {orderTimestamp : Option String}
    (hanswer : l.answer stamp =
      createItemsMessage msgType l.client targetId l.message.items.items 6 orderTimestamp stamp) :
    ∃ reply, l.answer stamp = some reply ∧ reply.msgType = msgType ∧ Reads reply l stamp := by
  obtain ⟨reply, hreply, htype, hs, hts, hi⟩ := createItemsMessage_delivered hroles h.short targetId
    l.message.items.items orderTimestamp stamp
  exact ⟨reply, hanswer.trans hreply, htype, hs, hts, by rw [hi, extractQuantities_transmitted]⟩

theorem Answerable.warehouseOrder (h : Answerable o stamp l db t)
    (hmt : l.message.msgType = .serverToWarehouseOrderToDispatchStockToHub) (sessionId : String) (command : Command) :
    ∃ (m : Message) (d : Db) (ts : Int), d.transactions = db.transactions ∧
      handleAnswer o sessionId command stamp l db =
        (some [.sendToUsername t.destinationId m (some l.transactionId)], d.setDispatched l.transactionId ts) ∧
      m.msgType = .serverToHubIncomingStockNotice ∧ extractQuantities m.delivered.items.items = t.quantities := by
  obtain ⟨hid, hrest⟩ := h.awaits
  simp only [hmt] at hrest
  obtain ⟨hordered, htype, hq⟩ := hrest
  obtain ⟨hdest, hdestLen⟩ := hordered.shippable.destination htype
  obtain ⟨reply, hans, hreplyType, hreads⟩ := h.reads
    (show prefixRoles MsgType.warehouseToServerShipmentNotice.text = some (warehouse, server) by decide)
    (by simp only [Letter.answer, hmt]; rfl)
  obtain ⟨d, ts, hd, hparse, htrans⟩ := h.adjusts
  simp only [hmt, reduceCtorEq, decide_false] at hd
  have hfound : db.findNewest (o.attempt 0).env l.client "" .assigned = some l.transactionId :=
    hordered.findNewest h.mem hid (by rw [hmt]; decide) h.short h.newest
  have hrow : db.transactions.find? l.transactionId = some t := Table.find?_eq_some.mpr ⟨h.mem, hid⟩
  have hcommits : commits (o.attempt 0).env (handleShipmentNotice reply.delivered) db =
      some (shipmentResult reply.delivered l.transactionId t.destinationId, d.setDispatched l.transactionId ts) := by
    rw [commits_handleShipmentNotice, settling_eq_some, hreads.sourceId, hreads.quantities, hreads.timestamp]
    exact ⟨(hordered.source_eq h.short).2, _, d, ts, hfound, hd, hparse, by rw [hrow]; rfl⟩
  obtain ⟨m, hm, hmType, hmq⟩ := dispatchOrder_eq
    (show (prefixRoles MsgType.serverToHubIncomingStockNotice.text).isSome by decide) (o.stamp 0) t.destinationId
    (shipmentResult reply.delivered l.transactionId t.destinationId)
  refine ⟨m, d, ts, htrans, ?_, hmType, ?_⟩
  · rw [handleAnswer, hans]
    simp only [handleOtherMessage, delivered_msgType, hreplyType, categorizeMessage,
      perform_of_commits (h.fault 0) hcommits]
    rw [if_pos ⟨rfl, hdest⟩]
    change (some (dispatchOrder _ _ t.destinationId _).toList, _) = _
    rw [hm, safeStrcpy_of_length_lt (hdestLen.trans (by decide))]
    rfl
  · rw [extractQuantities_delivered, hmq]
    simp only [shipmentResult, firstItems_itemsOf, hreads.quantities, hq]
    exact extractQuantities_positiveItems (hordered.shippable.quantities htype)

theorem Answerable.hubOrder (h : Answerable o stamp l db t) (hmt : l.message.msgType = .serverToHubOrderToDispatchStock)
    (sessionId : String) (command : Command) : ∃ (sent : List Response) (d : Db) (ts : Int), d.transactions =
    db.transactions ∧ handleAnswer o sessionId command stamp l db = (some sent, d.setDispatched l.transactionId ts) ∧
    lettersOf (some sent) = [] := by
  obtain ⟨hid, hordered⟩ := h.awaits
  simp only [hmt] at hordered
  obtain ⟨reply, hans, hreplyType, hreads⟩ := h.reads
    (show prefixRoles MsgType.hubToServerDispatchConfirmation.text = some (hub, server) by decide)
    (by simp only [Letter.answer, hmt]; rfl)
  obtain ⟨d, ts, hd, hparse, htrans⟩ := h.adjusts
  simp only [hmt, reduceCtorEq, decide_false] at hd
  have hfound : db.findNewest (o.attempt 0).env l.client "" .assigned = some l.transactionId :=
    hordered.findNewest h.mem hid (by rw [hmt]; decide) h.short h.newest
  have hcommits : commits (o.attempt 0).env (handleDispatchConfirmation reply.delivered) db =
      some ((0, some l.transactionId), d.setDispatched l.transactionId ts) := by
    rw [commits_handleDispatchConfirmation, settling_eq_some, hreads.sourceId, hreads.quantities, hreads.timestamp]
    exact ⟨(hordered.source_eq h.short).2, _, d, ts, hfound, hd, hparse, rfl⟩
  refine ⟨[makeSendToUsername "api_gateway" (orderDispatched reply.delivered l.transactionId) (some l.transactionId),
    .mqttPublishRoute l.transactionId], d, ts, htrans, ?_, rfl⟩
  rw [handleAnswer, hans]
  simp only [handleOtherMessage, delivered_msgType, hreplyType, categorizeMessage,
    perform_of_commits (h.fault 0) hcommits]

theorem Answerable.notice (h : Answerable o stamp l db t)
    (hmt : l.message.msgType = .serverToHubIncomingStockNotice) (sessionId : String) (command : Command) :
    ∃ (reply : Message) (d : Db) (ts : Int), d.transactions = db.transactions ∧
      (perform (o.attempt 0) (handleReceiptConfirmation reply) db).2 = d.setCompleted l.transactionId ts ∧
      handleAnswer o sessionId command stamp l db =
        (some (pendingGatewayOrders (o.attempt 1) o.stamp reply (d.setCompleted l.transactionId ts)).1,
          (pendingGatewayOrders (o.attempt 1) o.stamp reply (d.setCompleted l.transactionId ts)).2) := by
  obtain ⟨reply, hans, hreplyType, hreads⟩ := h.reads
    (show prefixRoles MsgType.hubToServerStockReceiptConfirmation.text = some (hub, server) by decide)
    (by simp only [Letter.answer, hmt]; rfl)
  obtain ⟨d, ts, hd, hparse, htrans⟩ := h.adjusts
  simp only [hmt, decide_true] at hd
  obtain ⟨hne, hfound⟩ : l.client ≠ "" ∧
      db.findNewest (o.attempt 0).env "" l.client .dispatched = some l.transactionId :=
    findNewest_notice h.mem h.awaits hmt h.newest
  have hcommits : commits (o.attempt 0).env (handleReceiptConfirmation reply.delivered) db =
      some (0, d.setCompleted l.transactionId ts) := by
    rw [commits_handleReceiptConfirmation, settling_eq_some, hreads.sourceId, hreads.quantities, hreads.timestamp]
    exact ⟨hne, _, d, ts, hfound, hd, hparse, rfl⟩
  have hperform := perform_of_commits (h.fault 0) hcommits
  refine ⟨reply.delivered, d, ts, htrans, by rw [hperform], ?_⟩
  rw [handleAnswer, hans]
  simp only [handleOtherMessage, delivered_msgType, hreplyType, categorizeMessage, hperform]

open Lifecycle SettledRows Reachability Scenario

variable {msg : Message} {sessionId : String} {command : Command} {w w' : World} {letters before after : List Letter}

theorem sound_handleAnswer (hs : Sound db) : Sound (handleAnswer o sessionId command stamp l db).2 := by
  rw [handleAnswer]
  split
  · exact hs
  · exact (grows_of_handles (handles_handleOtherMessage ..) hs).sound

def Settled (before after : List Letter) (l : Letter) (db : Db) (handled : Option (List Response) × Db) : Prop :=
  Settles l db handled ∧ Inv ⟨handled.2, before ++ after ++ lettersOf handled.1⟩

theorem Inv.warehouseOrder (h : Inv ⟨db, before ++ l :: after⟩) (hl : Answerable o stamp l db t)
    (hmt : l.message.msgType = .serverToWarehouseOrderToDispatchStockToHub) :
    Settled before after l db (handleAnswer o sessionId command stamp l db) := by
  obtain ⟨m, d, ts, htrans, he, hmType, hmq⟩ := hl.warehouseOrder hmt sessionId command
  have hs : Sound (handleAnswer o sessionId command stamp l db).2 := sound_handleAnswer h.sound
  obtain ⟨hid, hrest⟩ := hl.awaits
  simp only [hmt] at hrest
  obtain ⟨hordered, htype, -⟩ := hrest
  rw [he] at hs ⊢
  constructor
  · refine ⟨?_, fun _ => ⟨t, hl.mem, hid, m, rfl, hmType, hmq⟩⟩
    rw [if_neg (by rw [hmt]; decide), ← hid]
    exact marks_update htrans hl.mem (by rw [hordered.status]; decide) rfl
  · obtain ⟨hinv, hne⟩ := h.remove
    have hletters : lettersOf (some [.sendToUsername t.destinationId m (some l.transactionId)]) =
        [⟨t.destinationId, l.transactionId, m.delivered⟩] := by
      simp [lettersOf, letterOf, hmType, isLetter]
    rw [hletters]
    refine (hinv.update htrans hne (fun _ => by simp) hs).add hne ⟨_, mem_updateRows.mpr (.inr ⟨t,
      htrans ▸ hl.mem, hid, rfl⟩), hid, ?_⟩
    simp only [delivered_msgType, hmType]
    exact ⟨trivial, hordered.shippable.type, trivial, (hordered.shippable.destination htype).1⟩

theorem Inv.hubOrder (h : Inv ⟨db, before ++ l :: after⟩) (hl : Answerable o stamp l db t)
    (hmt : l.message.msgType = .serverToHubOrderToDispatchStock) :
    Settled before after l db (handleAnswer o sessionId command stamp l db) := by
  obtain ⟨sent, d, ts, htrans, he, hnone⟩ := hl.hubOrder hmt sessionId command
  have hs : Sound (handleAnswer o sessionId command stamp l db).2 := sound_handleAnswer h.sound
  obtain ⟨hid, hordered⟩ := hl.awaits
  simp only [hmt] at hordered
  obtain ⟨hinv, hne⟩ := h.remove
  rw [he] at hs ⊢
  constructor
  · refine ⟨?_, fun hw => absurd (hmt.symm.trans hw) (by decide)⟩
    rw [if_neg (by rw [hmt]; decide), ← hid]
    exact marks_update htrans hl.mem (by rw [hordered.status]; decide) rfl
  · rw [hnone, List.append_nil]
    exact hinv.update htrans hne (fun _ => by simp) hs

theorem Inv.notice (h : Inv ⟨db, before ++ l :: after⟩) (hl : Answerable o stamp l db t)
    (hmt : l.message.msgType = .serverToHubIncomingStockNotice) :
    Settled before after l db (handleAnswer o sessionId command stamp l db) := by
  obtain ⟨reply, d, ts, htrans, hperform, he⟩ := hl.notice hmt sessionId command
  have hs : Sound (d.setCompleted l.transactionId ts) := by
    rw [← hperform]
    exact (steady_handleReceiptConfirmation h.sound).sound
  obtain ⟨hid, hrest⟩ := hl.awaits
  simp only [hmt] at hrest
  obtain ⟨hinv, hne⟩ := h.remove
  rw [he]
  constructor
  · refine ⟨?_, fun hw => absurd (hmt.symm.trans hw) (by decide)⟩
    have hmarks : Marks .completed l.transactionId db (d.setCompleted l.transactionId ts) := by
      rw [← hid]
      exact marks_update htrans hl.mem (by rw [hrest.1]; decide) rfl
    rw [if_pos hmt]
    exact hmarks.then (by decide) (keepsSettled_pendingGatewayOrders _) (completed_pendingGatewayOrders _)
  · have hupdated := hinv.update htrans hne (fun _ => by simp) hs
    exact hupdated.issues (issues_pendingGatewayOrders hupdated.pending (hl.fault 1) _)
      (steady_pendingGatewayOrders hs _).sound

theorem settles_answer (h : Inv w) (hp : (Event.answer o sessionId command stamp before l after).Possible w)
    (hm : (Event.answer o sessionId command stamp before l after).Meets w) :
    Settled before after l w.db (handleAnswer o sessionId command stamp l w.db) := by
  obtain ⟨db, letters⟩ := w
  obtain ⟨hfault, hletters, hacc⟩ := hp
  obtain ⟨hlen, hnew⟩ := hm
  subst hletters
  obtain ⟨t, ht, ha⟩ := h.awaits l (by simp)
  have hl : Answerable o stamp l db t := ⟨ht, ha, hlen, hnew, hfault, hacc⟩
  have hrest := ha.2
  split at hrest
  · next hmt => exact h.warehouseOrder hl hmt
  · next hmt => exact h.hubOrder hl hmt
  · next hmt => exact h.notice hl hmt
  · exact hrest.elim

theorem inv_receipt (h : Inv ⟨db, letters⟩)
    (hreplenish : ∀ t ∈ db.transactions.rows, t.status = .dispatched → t.destinationId = msg.sourceId →
      t.transactionType = .replenish) :
    Inv ⟨(perform (o.attempt 0) (handleReceiptConfirmation msg) db).2, letters⟩ := by
  have hs : Sound (perform (o.attempt 0) (handleReceiptConfirmation msg) db).2 :=
    (steady_handleReceiptConfirmation h.sound).sound
  rcases perform_cases (o.attempt 0) (handleReceiptConfirmation msg) db with ⟨r, d, he⟩ | hc
  · rw [he] at hs ⊢
    exact h.of_tables rfl hs
  · generalize perform (o.attempt 0) (handleReceiptConfirmation msg) db = x at hc hs ⊢
    rw [commits_handleReceiptConfirmation, settling_eq_some] at hc
    obtain ⟨hne, id, d, ts, hf, ha, -, he⟩ := hc
    cases he
    obtain ⟨u, hu, rfl, hm, -⟩ := findNewest_eq_some hf
    refine h.update (adjustInventory_transactions ha).1 (fun l hl hid => ?_) (fun _ => by simp) hs
    obtain ⟨t, ht, hawaits⟩ := h.awaits l hl
    have he : t = u := db.transactions.unique ht hu (hawaits.1.trans hid)
    exact hawaits.settled.2 (by rw [he]; exact hreplenish u hu hm.2.2 (hm.2.1.resolve_left hne))

theorem inv_message (h : Inv w) {msg : Message} (hp : (Event.message o sessionId msg command).Possible w)
    (hm : (Event.message o sessionId msg command).Meets w) : Inv ((Event.message o sessionId msg command).apply w) := by
  obtain ⟨db, letters⟩ := w
  obtain ⟨hfault, hlen, htype⟩ := hp
  obtain ⟨hpacked, hreplenish⟩ := hm
  have hnotice : categorizeMessage msg.msgType ≠ .dispatchNotice := by
    cases ht : msg.msgType <;> simp [ht, categorizeMessage] at htype ⊢
  have hconfirm : categorizeMessage msg.msgType ≠ .dispatchConfirm := by
    cases ht : msg.msgType <;> simp [ht, categorizeMessage] at htype ⊢
  by_cases hc : categorizeMessage msg.msgType = .receiptConfirm
  · have hrestock : msg.msgType = .warehouseToServerStockReceiptConfirmation := by
      cases ht : msg.msgType <;> simp [ht, categorizeMessage] at hc htype ⊢
    have hreceipt := inv_receipt (o := o) h (hreplenish hrestock)
    have he : handleOtherMessage o sessionId msg command db =
        (some (pendingGatewayOrders (o.attempt 1) o.stamp msg
          (perform (o.attempt 0) (handleReceiptConfirmation msg) db).2).1,
        (pendingGatewayOrders (o.attempt 1) o.stamp msg
          (perform (o.attempt 0) (handleReceiptConfirmation msg) db).2).2) := by
      simp only [handleOtherMessage, hc]
    simp only [Event.apply, he]
    exact hreceipt.issues (issues_pendingGatewayOrders hreceipt.pending (hfault 1) _)
      (steady_pendingGatewayOrders hreceipt.sound _).sound
  · exact h.issues (issues_of_handles (handles_handleOtherMessage ..) h.sound h.pending hfault hlen hpacked hnotice
      hconfirm hc) (grows_of_handles (handles_handleOtherMessage ..) h.sound).sound

theorem inv_step (h : Inv w) (hs : MeetingStep w w') : Inv w' := by
  obtain ⟨e, hp, hm, rfl⟩ := hs
  cases e with
  | message o sessionId msg command => exact inv_message h hp hm
  | login a clientId clientType =>
    have hi := issues_getClientInventoryMessage (a := a) h.pending clientId clientType
    have hinv := h.issues hi (steady_getClientInventoryMessage h.sound clientId clientType).sound
    rw [List.append_nil] at hinv
    exact hinv
  | answer o sessionId command stamp before l after => exact (settles_answer h hp hm).2
  | lost before l after =>
    obtain ⟨db, letters⟩ := w
    subst hp
    exact h.remove.1

theorem inv_reach (h : Reach Init MeetingStep w) : Inv w := by
  refine h.invariant (P := Inv) (fun s hs => ?_) fun s t hi ht => inv_step hi ht
  obtain ⟨hinv, htrans, hletters⟩ := hs
  refine ⟨⟨?_, ?_⟩, ?_, ?_, ?_⟩
  · simp [htrans]
  · simp [hinv]
  · simp [hletters]
  · simp [hletters]
  · simp [PendingShippable, htrans]

/-- In every run whose steps meet the conditions, an answer settles the transaction of its
own order. -/
theorem answers_settle_own (h : Reach Init MeetingStep w)
    (hp : (Event.answer o sessionId command stamp before l after).Possible w)
    (hm : (Event.answer o sessionId command stamp before l after).Meets w) :
    Settles l w.db (handleAnswer o sessionId command stamp l w.db) :=
  (settles_answer (inv_reach h) hp hm).1

def received (msg : Message) : Event := .message plainOracle "tcp_1" msg .unknown

def stocked : World :=
  (received (itemsMessage .warehouseToServerInventoryUpdate warehouse "wh_1" "2026-01-01" (oneItem 1 50))).apply
    ⟨emptyDb, []⟩

def oneOrder : World :=
  (received (itemsMessage .hubToServerStockRequest hub "hub_1" "2026-01-02" (oneItem 1 5))).apply stocked

def twoOrders : World :=
  (received (itemsMessage .hubToServerStockRequest hub "hub_2" "2026-01-03" (oneItem 1 7))).apply oneOrder

theorem reach_oneOrder : Reach Init MeetingStep oneOrder := by
  refine .next (.next (.start ⟨rfl, rfl, rfl⟩) ⟨received _, ⟨fun _ => rfl, by decide, by decide⟩, ⟨?_, ?_⟩, rfl⟩)
    ⟨received _, ⟨fun _ => rfl, by decide, by decide⟩, ⟨?_, ?_⟩, rfl⟩
  · exact fun h => absurd h (by decide)
  · exact fun h => absurd h (by decide)
  · exact fun _ => ⟨by decide, by decide⟩
  · exact fun h => absurd h (by decide)

theorem reach_twoOrders : Reach Init MeetingStep twoOrders := by
  refine .next reach_oneOrder ⟨received _, ⟨fun _ => rfl, by decide, by decide⟩, ⟨?_, ?_⟩, rfl⟩
  · exact fun _ => ⟨by decide, by decide⟩
  · exact fun h => absurd h (by decide)

theorem answers_settle_own_newest : ∃ l l' : Letter, twoOrders.letters = [l, l'] ∧ l'.transactionId = 2 ∧
    Settles l' twoOrders.db (handleAnswer plainOracle "tcp_1" .unknown "2026-01-04" l' twoOrders.db) := by
  refine ⟨_, _, rfl, rfl, answers_settle_own reach_twoOrders
    (show (Event.answer plainOracle "tcp_1" .unknown "2026-01-04" [_] _ []).Possible twoOrders from
      ⟨fun _ => rfl, rfl, ?_, ?_⟩) ⟨by decide, ?_⟩⟩
  · decide
  · decide
  · unfold Newest
    decide

theorem answer_settles_other : ∃ (w : World) (l l' : Letter), Reach Init Step w ∧ w.letters = [l, l'] ∧
    l.transactionId = 1 ∧ l'.transactionId = 2 ∧
    (Event.answer plainOracle "tcp_1" .unknown "2026-01-04" [] l [l']).Possible w ∧
    (handleAnswer plainOracle "tcp_1" .unknown "2026-01-04" l w.db).2.transactions.rows.map TransactionRow.status =
      [.assigned, .dispatched] ∧ ¬ Settles l w.db (handleAnswer plainOracle "tcp_1" .unknown "2026-01-04" l w.db) := by
  refine ⟨twoOrders, _, _, ?_, rfl, rfl, rfl, ⟨fun _ => rfl, rfl, ?_, ?_⟩, by decide, fun h => ?_⟩
  · refine reach_twoOrders.mono ?_
    rintro s t ⟨e, hp, -, ht⟩
    exact ⟨e, hp, ht⟩
  · decide
  · decide
  · have hafter := h.marks.after
    revert hafter
    decide

end Logistics.OrderMatching
