import Logistics.BridgeAcks
import Logistics.GatewayFrames
import Logistics.WorkerSurvival

namespace Logistics.BridgeAcks

open List KeyedTable Ipc JsonManager Deserialize Serialize MessageHandler SessionManager TimerManager Worker Server
open TimestampLayout

variable {cfg : Config} {sid key : String} {l : Link} {msg : Message}

def Awaits (sid : String) (l : Link) (key : String) : Prop :=
  (∃ text ∈ l.acks, safeStrcpy timestampSize text = key) ∨ ∃ frame ∈ l.unread sid, Carries key frame

structure Inv (sid : String) (l : Link) : Prop where
  awaits : ∀ key e, l.reactor.timers.entries.find? ⟨.ack, sid, key⟩ = some e → Awaits sid l key
  sane : Sane sid l.reactor.timers
  posted : Untimed l.reactor.posted
  consumed : l.consumed ≤ (sentTo sid l.reactor).length

structure Fresh (sid : String) (l : Link) : Prop where
  timers : ∀ k e, l.reactor.timers.entries.find? k = some e → k.session ≠ sid ∧
    ∀ key frame retryCount maxRetries, e.callback ≠ .ackTimeout sid key frame retryCount maxRetries
  posted : Untimed l.reactor.posted
  consumed : l.consumed = (sentTo sid l.reactor).length

theorem Fresh.inv (h : Fresh sid l) : Inv sid l where
  awaits _ e he := absurd rfl (h.timers _ e he).1
  sane k e he key frame retryCount maxRetries hc := absurd hc ((h.timers k e he).2 key frame retryCount maxRetries)
  posted := h.posted
  consumed := Nat.le_of_eq h.consumed

theorem Inv.effect (h : Inv sid l) {r : Reactor} (he : Effect sid (Awaits sid l) l.reactor r) :
    Inv sid { l with reactor := r } := by
  obtain ⟨new, hnew, htimers⟩ := he.timers
  have hunread : Link.unread sid { l with reactor := r } = l.unread sid ++ new := by
    rw [Link.unread, Link.unread, hnew, drop_append_of_le_length h.consumed]
  have hkeeps : ∀ key, Awaits sid l key → Awaits sid { l with reactor := r } key := by
    rintro key (hack | ⟨frame, hmem, hcarries⟩)
    · exact .inl hack
    · exact .inr ⟨frame, hunread ▸ mem_append_left _ hmem, hcarries⟩
  refine ⟨fun key e hfind => ?_, he.callbacks h.sane, he.posted h.posted, ?_⟩
  · rcases htimers key e hfind with hold | ha | ⟨frame, hmem, hcarries⟩
    · exact hkeeps key (h.awaits key e hold)
    · exact hkeeps key ha
    · exact .inr ⟨frame, hunread ▸ mem_append_right _ hmem, hcarries⟩
  · rw [hnew, length_append]
    exact Nat.le_add_right_of_le h.consumed

def Keyed (resp : Slot) : Prop :=
  (resp.command = .broadcast → needAck resp = false) ∧
    (resp.command = .startAckTimer ∨ resp.command = .send ∧ needAck resp →
      ∃ msg transactionId, resp.payload = .message msg transactionId ∧ resp.timerKey = timerKey msg)

def FromWorkers (cfg : Config) (resp : Slot) : Prop :=
  (∃ parse o req store responses, (processRequest cfg parse o req store).1 = some responses ∧ resp ∈ responses) ∨
    ∃ parse stamp req, generateAck parse stamp req = some resp

variable {resp : Slot}

theorem keyed_of_command (h : ∀ c ∈ [ResponseCommand.broadcast, .startAckTimer, .send], resp.command ≠ c) :
    Keyed resp := by
  refine ⟨fun hc => absurd hc (h _ (by simp)), ?_⟩
  rintro (hc | ⟨hc, -⟩)
  · exact absurd hc (h _ (by simp))
  · exact absurd hc (h _ (by simp))

theorem keyed_makeSendResponse (sessionId : String) (frame : Frame) : Keyed (makeSendResponse sessionId frame) := by
  refine ⟨by rintro ⟨⟩, ?_⟩
  rintro (⟨⟨⟩⟩ | ⟨-, ⟨⟩⟩)

theorem keyed_makeStartTimer (sessionId : String) (msg : Message) : Keyed (makeStartTimer cfg sessionId msg) :=
  ⟨by rintro ⟨⟩, fun _ => ⟨msg, none, rfl, rfl⟩⟩

theorem keyed_slotOf (response : Response) : Keyed (slotOf cfg response) := by
  cases response with
  | send | adminReply | gatewayReply => exact keyed_makeSendResponse _ _
  | sendToUsername username msg transactionId => exact ⟨by rintro ⟨⟩, fun _ => ⟨msg, transactionId, rfl, rfl⟩⟩
  | startAckTimer sessionId msg => exact keyed_makeStartTimer sessionId msg
  | broadcast msg => exact ⟨fun _ => rfl, by rintro (⟨⟨⟩⟩ | ⟨⟨⟩, -⟩)⟩
  | mqttPublishRoute => exact keyed_of_command (by simp [slotOf, zeroedSlot])

variable {req : RequestSlot} {store : Store} {o : Oracle}

theorem FromWorkers.keyed (h : FromWorkers cfg resp) : Keyed resp := by
  rcases h with ⟨parse, o, req, store, responses, hdone, hmem⟩ | ⟨parse, stamp, req, hack⟩
  · refine forall_processRequest (fun root => forall_handleMessage (fun _ => forall_handleAuthRequest (fun _ _ => ?_)
      (fun _ => keyed_makeSendResponse _ _) (keyed_makeStartTimer _) ?_) (fun _ => ?_) ?_ fun _ r _ => keyed_slotOf r)
      resp (show resp ∈ (processRequest cfg parse o req store).1.getD [] by rwa [hdone])
    · exact keyed_of_command (by simp [makeMarkAuthenticated, zeroedSlot])
    · exact keyed_of_command (by simp [makeStartKeepaliveTimer, zeroedSlot])
    · exact keyed_of_command (by simp [makeCancelTimer, zeroedSlot])
    · exact keyed_of_command (by simp [makeResetKeepaliveTimer, zeroedSlot])
  · exact forall_generateAck (fun _ _ => keyed_makeSendResponse _ _) resp (Option.mem_toList.mpr hack)

def Starts (sid : String) (r : Reactor) (resp : Slot) : Prop :=
  resp.command = .startAckTimer ∧ resp.sessionId = sid ∨
    resp.command = .send ∧ needAck resp ∧ sendTarget r.sessions resp = some sid

/-- What a gateway session needs of a step: the workers start timers on it for login
replies and notices only, and a timer that comes in a slot of its own is not behind the ACK
of its message; an ACK is handled while the session lives; and a message with a timer is
read by who answers it, with a timestamp in the layout. -/
def Step.Good (cfg : Config) (sid : String) (l : Link) : Step → Prop
  | .dispatch _ resp => FromWorkers cfg resp ∧
      (Starts sid l.reactor resp → ∀ msg transactionId, resp.payload = .message msg transactionId → Timed msg) ∧
        (resp.command = .startAckTimer → resp.sessionId = sid → Awaits sid l resp.timerKey)
  | .acknowledge _ => hasSession l.reactor.sessions sid
  | .read _ written => ∀ msg transactionId rest, l.unread sid = .message msg transactionId :: rest → Timed msg →
      written ∧ l.reader.Answers msg ∧ ∃ t : Time, msg.timestamp = t.text
  | .event _ | .take | .begin _ => True

def Along (cfg : Config) (sid : String) : Link → List Step → Prop
  | _, [] => True
  | l, step :: rest => step.Good cfg sid l ∧ Along cfg sid (step.apply cfg sid l) rest

theorem serves_of_good {now : Nat} (h : (Step.dispatch now resp).Good cfg sid l) :
    Serves sid (Awaits sid l) l.reactor resp := by
  obtain ⟨hworkers, htimed, hstart⟩ := h
  have hkeyed := hworkers.keyed
  refine ⟨hkeyed.1, fun hc hack htarget => ?_, fun hc hs => ⟨?_, hstart hc hs⟩⟩
  · obtain ⟨msg, transactionId, hpayload, hkey⟩ := hkeyed.2 (.inr ⟨hc, hack⟩)
    exact ⟨msg, transactionId, hpayload, htimed (.inr ⟨hc, hack, htarget⟩) msg transactionId hpayload, hkey.symm⟩
  · obtain ⟨msg, transactionId, hpayload, hkey⟩ := hkeyed.2 (.inl hc)
    exact ⟨msg, transactionId, hpayload, htimed (.inl ⟨hc, hs⟩) msg transactionId hpayload, hkey.symm⟩

theorem dispatchResponse_cancel {r : Reactor} (h : hasSession r.sessions sid) (now : Nat) (text : String) :
    dispatchResponse now r (makeCancelTimer sid text) =
      { r with timers := cancelAckTimer r.timers sid (safeStrcpy timestampSize text) } := by
  rw [dispatchResponse, if_neg]
  · rfl
  · rintro ⟨-, -, hnone⟩
    exact absurd h (by rw [show hasSession r.sessions sid = false from hnone]; exact Bool.false_ne_true)

theorem Inv.acknowledge (h : Inv sid l) (hsession : hasSession l.reactor.sessions sid) (now : Nat) :
    Inv sid ((Step.acknowledge now).apply cfg sid l) := by
  rw [Step.apply]
  cases hacks : l.acks with
  | nil => exact h
  | cons text acks =>
    dsimp only
    rw [dispatchResponse_cancel hsession]
    refine ⟨fun key e he => ?_, fun k e he => ?_, h.posted, h.consumed⟩
    · simp only [cancelAckTimer, find?_cancelTimer] at he
      split at he
      · cases he
      · next hne =>
        rcases h.awaits key e he with ⟨text', hmem, hkey⟩ | hunread
        · rw [hacks] at hmem
          rcases mem_cons.mp hmem with rfl | hmem
          · exact absurd (by rw [hkey]) hne
          · exact .inl ⟨text', hmem, hkey⟩
        · exact .inr hunread
    · simp only [cancelAckTimer, find?_cancelTimer] at he
      split at he
      · cases he
      · exact h.sane k e he

variable {written : Bool}

theorem acks_of_good {stamp : Time} {frame : Frame} {rest : List Frame}
    (hgood : (Step.read stamp written).Good cfg sid l) (hreads : l.reader.reads)
    (hunread : l.unread sid = frame :: rest) (hcarries : Carries key frame) :
    ∃ text ∈ (receive written l.reader (readFrame stamp frame)).2.toList, safeStrcpy timestampSize text = key := by
  obtain ⟨msg, transactionId, rfl, htimed, rfl⟩ := hcarries
  obtain ⟨rfl, hanswers, t, ht⟩ := hgood msg transactionId rest hunread htimed
  have hlength : msg.timestamp.length < timestampSize := by
    rw [ht, length_text]
    decide
  have hack := (receive_eq_timerKey_iff hreads htimed hlength stamp transactionId).mpr ⟨hanswers, t, ht⟩
  refine ⟨timerKey msg, ?_, ?_⟩
  · rw [hack]
    exact mem_singleton_self _
  · rw [timerKey_eq hlength, ht, safeStrcpy_text]

theorem Inv.read (h : Inv sid l) {stamp : Time} (hgood : (Step.read stamp written).Good cfg sid l) :
    Inv sid ((Step.read stamp written).apply cfg sid l) := by
  rw [Step.apply]
  cases hreads : l.reader.reads with
  | false => exact h
  | true =>
    cases hunread : l.unread sid with
    | nil => exact h
    | cons frame rest =>
      have hrest : (sentTo sid l.reactor).drop (l.consumed + 1) = rest := by
        rw [← drop_drop, ← Link.unread, hunread, drop_one, tail_cons]
      refine ⟨fun key e he => ?_, h.sane, h.posted, ?_⟩
      · rcases h.awaits key e he with ⟨text, hmem, hkey⟩ | ⟨frame', hmem, hcarries⟩
        · exact .inl ⟨text, mem_append_left _ hmem, hkey⟩
        · rw [hunread] at hmem
          rcases mem_cons.mp hmem with rfl | hmem
          · obtain ⟨text, hack, hkey⟩ := acks_of_good hgood hreads hunread hcarries
            exact .inl ⟨text, mem_append_right _ hack, hkey⟩
          · refine .inr ⟨frame', ?_, hcarries⟩
            rwa [Link.unread, hrest]
      · have hlt : l.consumed < (sentTo sid l.reactor).length := by
          by_contra hge
          rw [Link.unread, drop_eq_nil_of_le (Nat.le_of_not_lt hge)] at hunread
          cases hunread
        exact hlt

theorem Inv.step (hsid : sid ≠ "") (h : Inv sid l) {step : Step} (hgood : step.Good cfg sid l) :
    Inv sid (step.apply cfg sid l) := by
  cases step with
  | event e => exact h.effect (effect_event e h.posted h.sane)
  | take => exact h.effect (.of_drops ⟨rfl, fun _ _ he => he, rfl⟩)
  | dispatch now resp => exact h.effect (effect_dispatchResponse hsid (serves_of_good hgood))
  | acknowledge now => exact h.acknowledge hgood now
  | read stamp written => exact h.read hgood
  | begin keepalive =>
    rw [Step.apply]
    split
    · exact ⟨h.awaits, h.sane, h.posted, h.consumed⟩
    · exact h

theorem Inv.run (hsid : sid ≠ "") (h : Inv sid l) {steps : List Step} (hgood : Along cfg sid l steps) :
    Inv sid (run cfg sid l steps) := by
  induction steps generalizing l with
  | nil => exact h
  | cons step steps ih => exact ih (h.step hsid hgood.1) hgood.2

def ackEnvelope (sourceId stamp text checksum : String) : GatewayFrames.Envelope where
  msgType := "GATEWAY_TO_SERVER__ACK"
  sourceRole := gateway
  sourceId := sourceId
  targetRole := server
  targetId := "SERVER"
  timestamp := stamp
  payload := .object [("status_code", .number 200), ("ack_for_timestamp", .string text)]
  checksum := checksum

theorem makeCancelTimer_safeStrcpy (text : String) :
    makeCancelTimer sid (safeStrcpy timestampSize text) = makeCancelTimer sid text := by
  have htwice : safeStrcpy timestampSize (safeStrcpy timestampSize text) = safeStrcpy timestampSize text := by
    rw [safeStrcpy, safeStrcpy, String.toList_ofList, take_take, Nat.min_self]
  rw [makeCancelTimer, htwice, makeCancelTimer]

theorem processRequest_ack {parse : String → Option Json} {sourceId stamp text checksum : String}
    (h : Accepted parse req store.deadSessions (ackEnvelope sourceId stamp text checksum).tree) :
    (processRequest cfg parse o req store).1 = some [makeCancelTimer req.sessionId text] := by
  have hfield : field (ackEnvelope sourceId stamp text checksum).tree "msg_type" messageTypeSize =
      "GATEWAY_TO_SERVER__ACK" := field_eq rfl (by decide)
  have htype : (deserializeMessage (ackEnvelope sourceId stamp text checksum).tree).msgType = .gatewayToServerAck := by
    change msgTypeOf (field _ "msg_type" messageTypeSize) = _
    rw [hfield]
    decide
  have hhandler : findHandler "GATEWAY_TO_SERVER__ACK" = some .acknowledgment := by decide +kernel
  have hpayload : (deserializeMessage (ackEnvelope sourceId stamp text checksum).tree).payload =
      .acknowledgment 200 (safeStrcpy timestampSize text) := by
    change deserializePayload (field _ "msg_type" messageTypeSize) _ = _
    rw [hfield]
    rfl
  rw [processRequest_of_accepted h, Worker.handleMessage]
  simp only [htype, categorizeMessage, handleAckMessage, ackForTimestamp, hpayload, makeCancelTimer_safeStrcpy]

/-- A message that the core sends to a gateway with a timer is answered with its key exactly
if the read loop of the listener reads it, or `Connect` if it is the login reply, and its
timestamp is in the layout; the workers then cancel the timer of that key. While this and the
other conditions hold, a timer of the session that is due has its frame unread or its ACK on
the way. -/
theorem timed_frames_acknowledged_iff (cfg : Config) (hsid : sid ≠ "") :
    (∀ reader msg stamp transactionId, reader.reads → Timed msg → msg.timestamp.length < timestampSize →
      ((receive true reader (readFrame stamp (.message msg transactionId))).2 = some (timerKey msg) ↔
        reader.Answers msg ∧ ∃ t : Time, msg.timestamp = t.text)) ∧ (∀ parse o req store sourceId stamp text checksum,
      Accepted parse req store.deadSessions (ackEnvelope sourceId stamp text checksum).tree →
        (processRequest cfg parse o req store).1 = some [makeCancelTimer req.sessionId text]) ∧
    ∀ l steps, Fresh sid l → Along cfg sid l steps → ∀ now, ∀ e ∈ dueEntries (run cfg sid l steps).reactor.timers now,
      e.key.type = .ack → e.key.session = sid → Awaits sid (run cfg sid l steps) e.key.timestamp := by
  refine ⟨?_, ?_, ?_⟩
  · intro reader msg stamp transactionId hreads htimed hlength
    exact receive_eq_timerKey_iff hreads htimed hlength stamp transactionId
  · intro parse o req store sourceId stamp text checksum haccepted
    exact processRequest_ack haccepted
  · intro l steps hfresh hgood now e he htype hsession
    have hfind : (run cfg sid l steps).reactor.timers.entries.find? ⟨.ack, sid, e.key.timestamp⟩ = some e := by
      have hkey : e.key = ⟨.ack, sid, e.key.timestamp⟩ := by rw [← htype, ← hsession]
      rw [← hkey]
      exact find?_of_mem_dueEntries he
    exact (hfresh.inv.run hsid hgood).awaits _ e hfind

def morning : Time := ⟨⟨2026, 1, 2, 3, 4, 5, 678⟩, by decide⟩

def loginDocument : Json :=
  .object [("msg_type", .string "GATEWAY_TO_SERVER__AUTH_REQUEST"), ("source_role", .string gateway),
    ("source_id", .string "api_gateway"),
    ("payload", .object [("username", .string "api_gateway"), ("password", .string "secret")])]

def gatewayStore : Store where
  db := Scenario.emptyDb
  credentials := Table.empty.put ⟨"api_gateway", "secret", gateway, false⟩
  deadSessions := ∅

def loginRequest (sessionId : String) : RequestSlot := ⟨sessionId, .tcp, "", 0, false, false, false, "", ""⟩

def loginReply : Message :=
  createMessage .serverToGatewayAuthResponse server server gateway "api_gateway" (.authResponse 200) morning.text

def loginSlots (sessionId : String) : List Slot :=
  [makeMarkAuthenticated sessionId gateway "api_gateway", makeSendResponse sessionId (.message loginReply none),
    makeStartTimer ⟨5, 3, 30⟩ sessionId loginReply, makeStartKeepaliveTimer ⟨5, 3, 30⟩ sessionId]

def morningOracle : Oracle := { Scenario.plainOracle with stamp := fun _ => morning.text }

theorem handleMessage_login (sessionId : String) :
    (Worker.handleMessage ⟨5, 3, 30⟩ morningOracle loginDocument (loginRequest sessionId) gatewayStore).1 =
      some (loginSlots sessionId) := by
  have hfield : field loginDocument "msg_type" messageTypeSize = "GATEWAY_TO_SERVER__AUTH_REQUEST" := by decide
  have htype : (deserializeMessage loginDocument).msgType = .gatewayToServerAuthRequest := by decide
  have hhandler : findHandler "GATEWAY_TO_SERVER__AUTH_REQUEST" = some .authRequest := by decide +kernel
  have hpayload : (deserializeMessage loginDocument).payload = .authRequest "api_gateway" "secret" := by
    rfl
  have hrole : (deserializeMessage loginDocument).sourceRole = gateway := by decide
  have hid : (deserializeMessage loginDocument).sourceId = "api_gateway" := by decide
  rw [Worker.handleMessage]
  rfl

theorem loginSlots_fromWorkers {sessionId : String} (h : resp ∈ loginSlots sessionId) :
    FromWorkers ⟨5, 3, 30⟩ resp := by
  have hauth : categorizeMessage (deserializeMessage loginDocument).msgType = .authRequest := by decide
  have haccepted : Accepted (fun _ => some loginDocument) (loginRequest sessionId) gatewayStore.deadSessions
      loginDocument := ⟨rfl, fun hdead => absurd hdead.2 (Finset.notMem_empty _), rfl, rfl, .inl hauth⟩
  refine .inl ⟨fun _ => some loginDocument, morningOracle, loginRequest sessionId, gatewayStore,
    loginSlots sessionId, ?_, h⟩
  rw [processRequest_of_accepted haccepted, handleMessage_login]

def pooled : Link := ⟨onAccept Server.start, .connect, 0, []⟩

def pooledLogin : List Step :=
  (loginSlots "tcp_session_1").map (Step.dispatch 0) ++ [.read morning true, .acknowledge 0]

theorem fresh_pooled : Fresh "tcp_session_1" pooled where
  timers k e he := by cases he
  posted batch hmem := by cases hmem
  consumed := rfl

theorem good_login {l : Link} (h : resp ∈ loginSlots sid)
    (hawaits : resp.command = .startAckTimer → Awaits sid l resp.timerKey) :
    (Step.dispatch 0 resp).Good ⟨5, 3, 30⟩ sid l := by
  refine ⟨loginSlots_fromWorkers h, fun _ msg transactionId hpayload => ?_, fun hc _ => hawaits hc⟩
  have hreply : resp.payload = .empty ∨ resp.payload = .message loginReply none := by
    rcases mem_cons.mp h with rfl | h
    · exact .inl rfl
    · rcases mem_cons.mp h with rfl | h
      · exact .inr rfl
      · rcases mem_cons.mp h with rfl | h
        · exact .inr rfl
        · obtain rfl := mem_singleton.mp h
          exact .inl rfl
  rcases hreply with hreply | hreply
  · rw [hreply] at hpayload
    cases hpayload
  · rw [hreply] at hpayload
    cases hpayload
    exact .inl ⟨rfl, rfl⟩

theorem pooledLogin_good : Along ⟨5, 3, 30⟩ "tcp_session_1" pooled pooledLogin := by
  have htimed : Timed loginReply := .inl ⟨rfl, rfl⟩
  refine ⟨good_login mem_cons_self (by rintro ⟨⟩), good_login (by simp [loginSlots]) (by rintro ⟨⟩),
    good_login (by simp [loginSlots]) fun _ => .inr ⟨.message loginReply none, ?_, loginReply, none, rfl, htimed, rfl⟩,
    good_login (by simp [loginSlots]) (by rintro ⟨⟩), ?_, ?_, trivial⟩
  · exact mem_cons_self
  · intro msg transactionId rest hunread _
    have hreply : Frame.message loginReply none :: [] = .message msg transactionId :: rest := hunread
    cases hreply
    exact ⟨rfl, .inr ⟨rfl, rfl, rfl⟩, morning, rfl⟩
  · change _ = true
    decide

def Acknowledged (link : Link) (session : String) : Prop :=
  ∀ now, ∀ e ∈ dueEntries link.reactor.timers now, ¬ (e.key.type = .ack ∧ e.key.session = session)

/-- On a pooled connection the login reply is acknowledged, and no timer is left. -/
theorem pooledLogin_acknowledged :
    Acknowledged (run ⟨5, 3, 30⟩ "tcp_session_1" pooled pooledLogin) "tcp_session_1" := by
  rintro now e he ⟨htype, hsession⟩
  have hawaits := (timed_frames_acknowledged_iff ⟨5, 3, 30⟩ (by decide : "tcp_session_1" ≠ "")).2.2 pooled pooledLogin
    fresh_pooled pooledLogin_good now e he htype hsession
  rcases hawaits with ⟨text, hmem, -⟩ | ⟨frame, hmem, -⟩
  · cases hmem
  · cases hmem

def waitingSend : Link where
  reactor := { Server.start with
    sessions := markAuthenticated (markAuthenticated (createSession (createSession SessionManager.start).2).2
      "tcp_session_1" gateway "api_gateway") "tcp_session_2" gateway "api_gateway" }
  reader := .send
  consumed := 0
  acks := []

def noticeRun : List Step :=
  [.dispatch 0 (Worker.makeSendToUsername ⟨5, 3, 30⟩ "api_gateway" (orderDispatched loginReply 7) (some 7)),
    .read morning true, .event (.expire (5 * 10 ^ 9)), .read morning true, .event (.expire (10 * 10 ^ 9)),
    .read morning true, .event (.expire (15 * 10 ^ 9))]

/-- The listener does not acknowledge its login reply. A pooled connection reads a notice
three times without an ACK, and loses its session. A timestamp with an hour of one digit
comes back with two. -/
theorem timed_frames_unanswered : (receive true .authenticate (readFrame morning (.message loginReply none))).2 = none ∧
      ((run ⟨5, 3, 30⟩ "tcp_session_2" waitingSend noticeRun).consumed = 3 ∧
        (run ⟨5, 3, 30⟩ "tcp_session_2" waitingSend noticeRun).acks = [] ∧
        hasSession (run ⟨5, 3, 30⟩ "tcp_session_2" waitingSend noticeRun).reactor.sessions "tcp_session_2" = false) ∧
      reformat "2026-01-02T3:04:05.678Z" = some "2026-01-02T03:04:05.678Z" := by
  refine ⟨by decide, ⟨by decide, by decide, by decide⟩, by decide⟩

end Logistics.BridgeAcks
