import Logistics.SilentSessions

namespace Logistics.Broadcasts

open KeyedTable Ipc SessionManager TimerManager Worker Server SilentSessions Reachability List

def sends (m : Sessions) (batch : Batch) : List Sent :=
  batch.targets.filterMap fun target => (getSessionInfo m target).map fun info => ⟨info, batch.resp.payload⟩

variable {cfg : Config} {now : Nat} {r : Reactor} {m : Sessions} {l : Loop} {s : String}

theorem sent_broadcastTo (resp : Slot) (target : String) : (broadcastTo now resp r target).sent =
    r.sent ++ ((getSessionInfo r.sessions target).map fun info => ⟨info, resp.payload⟩).toList := by
  rw [broadcastTo, hasSession, getSessionInfo]
  cases hinfo : r.sessions.sessions.find? target with
  | none => exact (append_nil _).symm
  | some info =>
    have hsent : (sendToSession r target resp.payload).sent = r.sent ++ [⟨info, resp.payload⟩] := by
      rw [sendToSession, getSessionInfo, hinfo]
    rw [if_pos Option.isSome_some]
    dsimp only
    split <;> exact hsent

theorem sent_sendBatch (r : Reactor) (batch : Batch) :
    (sendBatch now r batch).sent = r.sent ++ sends r.sessions batch := by
  obtain ⟨targets, resp⟩ := batch
  rw [sendBatch, sends]
  induction targets generalizing r with
  | nil => exact (append_nil _).symm
  | cons target targets ih =>
    rw [foldl_cons, ih, broadcastTo_sessions, sent_broadcastTo, filterMap_cons, append_assoc]
    cases getSessionInfo r.sessions target <;> rfl

theorem sent_onWakeup (r : Reactor) : (onWakeup now r).sent = r.sent ++ r.posted.flatMap (sends r.sessions) := by
  have hbatches (batches : List Batch) (r : Reactor) :
      (batches.foldl (sendBatch now) r).sent = r.sent ++ batches.flatMap (sends r.sessions) := by
    induction batches generalizing r with
    | nil => exact (append_nil _).symm
    | cons batch batches ih => rw [foldl_cons, ih, sendBatch_sessions, sent_sendBatch, flatMap_cons, append_assoc]
  exact hbatches r.posted { r with posted := [] }

theorem flatMap_chunks {α : Type} (l : List α) (size n : Nat) :
    ((range n).flatMap fun k => (l.drop (k * size)).take size) = l.take (n * size) := by
  induction n with
  | zero => rw [Nat.zero_mul, take_zero]; rfl
  | succ n ih =>
    rw [range_succ, flatMap_append, ih, Nat.succ_mul, take_add]
    simp

theorem flatMap_laterBatches (m : Sessions) (targets : List String) (resp : Slot) :
    (laterBatches targets resp).flatMap (sends m) = sends m ⟨targets.drop broadcastBatchSize, resp⟩ := by
  have hchunks := flatMap_chunks (targets.drop broadcastBatchSize) broadcastBatchSize
    ((targets.length - 1) / broadcastBatchSize)
  rw [take_of_length_le (by rw [length_drop, broadcastBatchSize]; omega)] at hchunks
  rw [sends, ← hchunks, laterBatches, flatMap_map, filterMap_flatMap]
  congr 1
  funext k
  rw [sends, drop_drop, Nat.succ_mul, Nat.add_comm]

theorem map_sends (m : Sessions) (batch : Batch) :
    (sends m batch).map (fun f => f.info.sessionId) = batch.targets.filter (hasSession m) := by
  obtain ⟨targets, resp⟩ := batch
  rw [sends]
  induction targets with
  | nil => rfl
  | cons target targets ih =>
    rw [filterMap_cons, filter_cons, hasSession, getSessionInfo]
    cases hinfo : m.sessions.find? target with
    | none => exact ih
    | some info =>
      have hid : info.sessionId = target := (Table.find?_eq_some.1 hinfo).2
      exact congrArg₂ List.cons hid ih

theorem count_sends {batch : Batch} (h : batch.targets.Nodup) (s : String) :
    (sends m batch).countP (fun f => f.info.sessionId = s) =
      if s ∈ batch.targets ∧ hasSession m s = true then 1 else 0 := by
  have hcount : (sends m batch).countP (fun f => f.info.sessionId = s) =
      ((sends m batch).map (fun f => f.info.sessionId)).count s := by
    rw [List.count, countP_map]
    rfl
  rw [hcount, map_sends, (h.filter _).count]
  exact if_congr mem_filter rfl rfl

theorem posted_sendBatch (r : Reactor) (batch : Batch) : (sendBatch now r batch).posted = r.posted := by
  refine foldl_relates (R := fun r r' : Reactor => r'.posted = r.posted) (fun _ => rfl) (fun h h' => h'.trans h) r
    fun target _ r => ?_
  rw [broadcastTo]
  split
  · dsimp only
    split <;> exact sendToSession_posted _ _
  · rfl

theorem posted_dispatchBroadcast (resp : Slot) : (dispatchBroadcast now r resp).posted =
    r.posted ++ laterBatches (getAuthenticatedSessions r.sessions) resp :=
  congrArg (· ++ _) (posted_sendBatch r _)

theorem posted_move {move : Move} (h : ∀ now, move ≠ .event (.wakeup now)) :
    l.reactor.posted <+: (move.apply cfg l).reactor.posted := by
  have hmoves := moves_apply cfg l move
  generalize move.apply cfg l = l' at hmoves ⊢
  cases hmoves with
  | blocked | expire | take => exact prefix_rfl
  | @event e hdue hne =>
    refine (does_event e).posted fun m hact => ?_
    cases e with
    | hangup => cases hact.1
    | expire now => exact hne now rfl
    | wakeup now => exact h now rfl
    | accept | frame | datagram => exact hact
  | @callback now c =>
    refine (does_fire (A := fun _ _ => False) (P := fun _ => CallbackActs c) fun _ hact => hact).posted fun _ hact => ?_
    cases hact
  | dispatch now resp =>
    refine (does_dispatch resp).posted ?_
    rintro _ ⟨-, -, hact⟩
    cases hact with
    | batch _ hact => obtain ⟨target, -, hact | ⟨-, hact⟩⟩ := hact <;> cases hact

structure Broadcast (cfg : Config) where
  loop : Loop
  now : Nat
  resp : Slot
  between : List Move
  wakeup : Nat
  ready : loop.due = []
  command : resp.command = .broadcast
  accepted : ¬Discarded loop.reactor.sessions resp
  waits : ∀ now, Move.event (.wakeup now) ∉ between
  idle : (between.foldl (Move.apply cfg) ⟨dispatchResponse now loop.reactor resp, []⟩).due = []

namespace Broadcast

variable (b : Broadcast cfg)

def dispatched : Loop := (Move.dispatch b.now b.resp).apply cfg b.loop

def woken : Loop := b.between.foldl (Move.apply cfg) b.dispatched

def finished : Loop := (Move.event (.wakeup b.wakeup)).apply cfg b.woken

def recipients : List String := getAuthenticatedSessions b.loop.reactor.sessions

def first : List Sent := sends b.loop.reactor.sessions ⟨b.recipients.take broadcastBatchSize, b.resp⟩

def later : List Sent := sends b.woken.reactor.sessions ⟨b.recipients.drop broadcastBatchSize, b.resp⟩

def Stays (s : String) : Prop :=
  Along (Move.apply cfg) (fun l _ => hasSession l.reactor.sessions s = true) b.dispatched b.between ∧
    hasSession b.woken.reactor.sessions s = true

/-- The session was authenticated and not blacklisted, and is still there when its batch is run. -/
def Reaches (s : String) : Prop :=
  s ∈ b.recipients.take broadcastBatchSize ∨ s ∈ b.recipients.drop broadcastBatchSize ∧ b.Stays s

theorem dispatched_eq : b.dispatched = ⟨dispatchBroadcast b.now b.loop.reactor b.resp, []⟩ := by
  rw [dispatched, Move.apply, b.ready, dispatchResponse, if_neg b.accepted, b.command]
  rfl

theorem nodup_recipients : b.recipients.Nodup :=
  (filter_sublist.map SessionInfo.sessionId).nodup b.loop.reactor.sessions.sessions.nodup

theorem hasSession_of_mem (h : s ∈ b.recipients) : hasSession b.loop.reactor.sessions s = true := by
  obtain ⟨info, hinfo, rfl⟩ := mem_map.1 h
  have hfind := Table.find?_eq_some.2 ⟨(mem_filter.1 hinfo).1, rfl⟩
  rw [hasSession, hfind]
  rfl

theorem posted_woken : ∃ newer, b.woken.reactor.posted =
    b.loop.reactor.posted ++ laterBatches b.recipients b.resp ++ newer := by
  have hprefix : b.dispatched.reactor.posted <+: b.woken.reactor.posted :=
    foldl_relates (R := fun l l' : Loop => l.reactor.posted <+: l'.reactor.posted) (fun _ => prefix_rfl)
      List.IsPrefix.trans _ fun move hmove _ => posted_move fun now he => b.waits now (he ▸ hmove)
  obtain ⟨newer, hnewer⟩ := hprefix
  refine ⟨newer, ?_⟩
  rw [← hnewer, dispatched_eq, posted_dispatchBroadcast]
  rfl

theorem sent_finished : b.finished.reactor.sent =
    b.woken.reactor.sent ++ b.woken.reactor.posted.flatMap (sends b.woken.reactor.sessions) := by
  have hidle : b.woken.due = [] := by
    have hdispatched : b.dispatched = ⟨dispatchResponse b.now b.loop.reactor b.resp, []⟩ := by
      rw [dispatched, Move.apply, b.ready]
      rfl
    rw [woken, hdispatched]
    exact b.idle
  rw [finished, Move.apply, hidle]
  · exact sent_onWakeup _
  · exact fun now h => by cases h

theorem count_sent (s : String) : (b.first ++ b.later).countP (fun f => f.info.sessionId = s) =
    if s ∈ b.recipients.take broadcastBatchSize ∨
      s ∈ b.recipients.drop broadcastBatchSize ∧ hasSession b.woken.reactor.sessions s = true then 1 else 0 := by
  have hnodup := b.nodup_recipients
  rw [countP_append, first, later, count_sends (hnodup.sublist (take_sublist _ _)),
    count_sends (hnodup.sublist (drop_sublist _ _))]
  have hdisjoint := disjoint_take_drop hnodup (le_refl broadcastBatchSize)
  by_cases hfirst : s ∈ b.recipients.take broadcastBatchSize
  · have hthere := b.hasSession_of_mem (mem_of_mem_take hfirst)
    rw [if_pos ⟨hfirst, hthere⟩, if_neg fun h => hdisjoint hfirst h.1, if_pos (.inl hfirst)]
  · rw [if_neg fun h => hfirst h.1, Nat.zero_add]
    exact if_congr (or_iff_right hfirst).symm rfl rfl

end Broadcast

/-- The broadcast is sent once to each session it is meant for and to no other exactly if no
session of a later batch has left the table and is back under its id when the loop wakes up. -/
theorem broadcast_once_iff (cfg : Config) (b : Broadcast cfg) :
    b.dispatched.reactor.sent = b.loop.reactor.sent ++ b.first ∧
    (∃ newer : List Batch, b.finished.reactor.sent = b.woken.reactor.sent ++
      b.loop.reactor.posted.flatMap (sends b.woken.reactor.sessions) ++ b.later ++
        newer.flatMap (sends b.woken.reactor.sessions)) ∧
    ((∀ s, (b.Reaches s → (b.first ++ b.later).countP (fun f => f.info.sessionId = s) = 1) ∧
        (¬b.Reaches s → (b.first ++ b.later).countP (fun f => f.info.sessionId = s) = 0)) ↔
      ∀ s ∈ b.recipients.drop broadcastBatchSize, hasSession b.woken.reactor.sessions s = true → b.Stays s) := by
  refine ⟨?_, ?_, fun h s hs hthere => ?_, fun h s => ?_⟩
  · rw [b.dispatched_eq]
    exact sent_sendBatch _ _
  · obtain ⟨newer, hnewer⟩ := b.posted_woken
    refine ⟨newer, ?_⟩
    rw [b.sent_finished, hnewer, flatMap_append, flatMap_append, flatMap_laterBatches]
    simp only [append_assoc]
    rfl
  · by_contra hstays
    have hnot : ¬b.Reaches s := by
      rintro (hfirst | ⟨-, h'⟩)
      · exact disjoint_take_drop b.nodup_recipients (le_refl broadcastBatchSize) hfirst hs
      · exact hstays h'
    have hcount := (h s).2 hnot
    rw [b.count_sent, if_pos (.inr ⟨hs, hthere⟩)] at hcount
    exact one_ne_zero hcount
  · rw [b.count_sent]
    constructor
    · exact fun hreaches => if_pos (hreaches.imp_right fun h' => ⟨h'.1, h'.2.2⟩)
    · exact fun hnot => if_neg fun h' => hnot (h'.imp_right fun hl => ⟨hl.1, h s hl.1 hl.2⟩)

def peer : Address := ⟨"10.0.0.1", 4000⟩

def crowdRow (sessionId : String) (type : ProtocolType) (udpEndpoint : Option Address) : SessionInfo :=
  ⟨sessionId, true, false, "HUB", "hub", type, udpEndpoint⟩

def crowd : Table SessionInfo.sessionId where
  rows := (range broadcastBatchSize).map (fun n => crowdRow (tcpSessionId n) .tcp none) ++
    [crowdRow (makeUdpSessionId peer) .udp (some peer)]
  nodup := by
    rw [map_append, map_map]
    refine Nodup.append ?_ (nodup_singleton _) ?_
    · exact nodup_range.map fun _ _ h => tcpSessionId_injective h
    · rw [map_singleton, disjoint_singleton]
      intro h
      obtain ⟨n, -, hn⟩ := mem_map.1 h
      exact makeUdpSessionId_ne_tcpSessionId peer n hn.symm

def reconnect (cfg : Config) : Broadcast cfg where
  loop := ⟨{ Server.start with sessions := ⟨crowd, .empty, broadcastBatchSize⟩ }, []⟩
  now := 0
  resp := zeroedSlot .broadcast
  between :=
    [.dispatch 0 { zeroedSlot .disconnect with sessionId := makeUdpSessionId peer }, .event (.datagram peer "" 0)]
  wakeup := 0
  ready := rfl
  command := rfl
  accepted h := h.1 rfl
  waits now h := by simp at h
  idle := rfl

theorem recipients_reconnect (cfg : Config) :
    (reconnect cfg).recipients.drop broadcastBatchSize = [makeUdpSessionId peer] := by
  have hrecipients : (reconnect cfg).recipients =
      (range broadcastBatchSize).map tcpSessionId ++ [makeUdpSessionId peer] := by
    rw [Broadcast.recipients, getAuthenticatedSessions, filter_eq_self.2]
    · change crowd.rows.map SessionInfo.sessionId = _
      rfl
    · intro info hinfo
      rcases mem_append.1 hinfo with h | h
      · obtain ⟨n, -, rfl⟩ := mem_map.1 h
        rfl
      · rw [mem_singleton.1 h]
        rfl
  rw [hrecipients]
  exact drop_left' (by rw [length_map, length_range])

theorem find?_disconnected (r : Reactor) (s : String) :
    (dispatchResponse now r { zeroedSlot .disconnect with sessionId := s }).sessions.sessions.find? s = none := by
  rw [dispatchResponse]
  split
  · next h => exact Option.not_isSome_iff_eq_none.1 (Bool.eq_false_iff.1 h.2.2)
  · change (handleKeepaliveTimeout r s).sessions.sessions.find? s = none
    rw [handleKeepaliveTimeout]
    split
    · next hnone => exact hnone
    · rw [Server.removeSession, find?_removeSession, if_pos rfl]

/-- The new session at the address, which has not logged in, is sent the broadcast. -/
theorem broadcast_reaches_new_session : ⟨⟨makeUdpSessionId peer, false, false, "", "", .udp, some peer⟩, .empty⟩ ∈
      (reconnect ⟨5, 3, 30⟩).finished.reactor.sent := by
  have hfind : (reconnect ⟨5, 3, 30⟩).woken.reactor.sessions.sessions.find? (makeUdpSessionId peer) =
      some ⟨makeUdpSessionId peer, false, false, "", "", .udp, some peer⟩ := by
    rw [Broadcast.woken, Broadcast.dispatched_eq]
    generalize dispatchBroadcast _ _ _ = r
    change (onDatagram (dispatchResponse 0 r _) peer "" 0).sessions.sessions.find? _ = _
    rw [onDatagram, pushRequest_sessions, find?_getOrCreateUdpSession, if_pos rfl, find?_disconnected]
    rfl
  obtain ⟨newer, hnewer⟩ := (reconnect ⟨5, 3, 30⟩).posted_woken
  rw [Broadcast.sent_finished, hnewer, flatMap_append, flatMap_append, flatMap_laterBatches,
    recipients_reconnect]
  refine mem_append_right _ (mem_append_left _ (mem_append_right _ (mem_filterMap.2 ?_)))
  refine ⟨makeUdpSessionId peer, mem_singleton_self _, ?_⟩
  rw [getSessionInfo, hfind]
  rfl

end Logistics.Broadcasts
