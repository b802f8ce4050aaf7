import Logistics.ServerEffects
import Logistics.TimestampLayout

namespace Logistics.BridgeAcks

open JsonText JsonManager Serialize SessionManager Worker Server TimestampLayout List

structure Envelope where
  msgType : MsgType
  statusCode : Int
  timestamp : Time

def statusCode : Payload → Int
  | .authResponse code => code
  | .acknowledgment code _ => code
  | _ => 0

/-- `readFrameFrom`; `stamp` is the time in a reply of the gateway plugin. A reply of the
admin plugin has neither type nor time. -/
def readFrame (stamp : Time) : Frame → Option Envelope
  | .empty => none
  | .message msg _ => (unmarshalJSON (printString msg.timestamp)).map fun t => ⟨msg.msgType, statusCode msg.payload, t⟩
  | .adminReply => some ⟨.other "", 0, zeroTime⟩
  | .gatewayReply _ => some ⟨.serverToGatewayCommandResponse, 0, stamp⟩

inductive Reader
  | connect
  | authenticate
  | idle
  | send
  | sendKeepalive
  | readLoop
  | stopped
  | closed
deriving DecidableEq

def Reader.reads : Reader → Bool
  | .idle | .stopped | .closed => false
  | _ => true

def accepted (env : Envelope) : Bool := env.msgType = .serverToGatewayAuthResponse ∧ env.statusCode = 200

/-- The reader after a frame, with the `ack_for_timestamp` of the ACK that it writes;
`written` says whether the write works. A frame that cannot be decoded is none. -/
def receive (written : Bool) : Reader → Option Envelope → Reader × Option String
  | .connect, some env => if accepted env ∧ written then (.idle, some env.timestamp.text) else (.closed, none)
  | .authenticate, some env => (if accepted env then .readLoop else .closed, none)
  | .send, some env =>
    if env.msgType = .serverToGatewayCommandResponse then
      if written then (.idle, some env.timestamp.text) else (.closed, none)
    else (.send, none)
  | .sendKeepalive, some _ => (.idle, none)
  | .readLoop, some env =>
    (.readLoop, if env.msgType ≠ .serverToGatewayAck ∧ written then some env.timestamp.text else none)
  | .readLoop, none => (.stopped, none)
  | .connect, none | .authenticate, none | .send, none | .sendKeepalive, none => (.closed, none)
  | .idle, _ => (.idle, none)
  | .stopped, _ => (.stopped, none)
  | .closed, _ => (.closed, none)

/-- The core and one connection of the gateway. Of the frames that the core has sent on
it the gateway has read the first `consumed`; `acks` are on their way to the core. -/
structure Link where
  reactor : Reactor
  reader : Reader
  consumed : Nat
  acks : List String

variable (cfg : Config) (sid : String)

def sentTo (r : Reactor) : List Frame := (r.sent.filter fun s => s.info.sessionId = sid).map Sent.data

def Link.unread (l : Link) : List Frame := (sentTo sid l.reactor).drop l.consumed

inductive Step
  | event (e : Event)
  | take
  | dispatch (now : Nat) (resp : Slot)
  | acknowledge (now : Nat)
  | read (stamp : Time) (written : Bool)
  | begin (keepalive : Bool)

def Step.apply (l : Link) : Step → Link
  | .event e => { l with reactor := e.apply cfg l.reactor }
  | .take => { l with reactor := takeRequest l.reactor }
  | .dispatch now resp => { l with reactor := dispatchResponse now l.reactor resp }
  | .acknowledge now =>
    match l.acks with
    | [] => l
    | text :: acks => { l with reactor := dispatchResponse now l.reactor (makeCancelTimer sid text), acks := acks }
  | .read stamp written =>
    match l.reader.reads, l.unread sid with
    | true, frame :: _ =>
      let received := receive written l.reader (readFrame stamp frame)
      { l with reader := received.1, consumed := l.consumed + 1, acks := l.acks ++ received.2.toList }
    | _, _ => l
  | .begin keepalive => if l.reader = .idle then { l with reader := if keepalive then .sendKeepalive else .send } else l

def run (l : Link) (steps : List Step) : Link := steps.foldl (Step.apply cfg sid) l

def timerKey (msg : Message) : String := safeStrcpy timestampSize msg.timestamp

def isLoginReply (msg : Message) : Prop := msg.msgType = .serverToGatewayAuthResponse ∧ msg.payload = .authResponse 200

def Timed (msg : Message) : Prop := isLoginReply msg ∨ msg.msgType = .serverToGatewayOrderDispatched

def Reader.Answers (reader : Reader) (msg : Message) : Prop := reader = .readLoop ∨ reader = .connect ∧ isLoginReply msg

variable {cfg sid} {msg : Message}

theorem length_text (t : Time) : t.text.length = 24 := by
  simp only [Time.text, String.length_ofList, Time.format, length_append, length_cons, length_nil,
    length_pad]

theorem safeStrcpy_text (t : Time) : safeStrcpy timestampSize t.text = t.text :=
  safeStrcpy_of_length_lt (by rw [length_text]; decide)

theorem readFrame_text {stamp t : Time} {transactionId : Option Nat} (h : msg.timestamp = t.text) :
    readFrame stamp (.message msg transactionId) = some ⟨msg.msgType, statusCode msg.payload, t⟩ := by
  rw [readFrame, h, unmarshalJSON_text]
  rfl

theorem timerKey_eq (h : msg.timestamp.length < timestampSize) : timerKey msg = msg.timestamp :=
  safeStrcpy_of_length_lt h

theorem accepted_iff (htimed : Timed msg) (t : Time) :
    accepted ⟨msg.msgType, statusCode msg.payload, t⟩ = true ↔ isLoginReply msg := by
  rw [accepted, decide_eq_true_eq]
  rcases htimed with h | h
  · refine iff_of_true ⟨h.1, ?_⟩ h
    rw [h.2]
    rfl
  · refine iff_of_false ?_ ?_
    · rintro ⟨htype, -⟩
      rw [h] at htype
      cases htype
    · rintro ⟨htype, -⟩
      rw [h] at htype
      cases htype

variable {reader : Reader}

theorem receive_timed (hreads : reader.reads) (htimed : Timed msg) (t : Time) :
    (receive true reader (some ⟨msg.msgType, statusCode msg.payload, t⟩)).2 = some t.text ∧ reader.Answers msg ∨
      (receive true reader (some ⟨msg.msgType, statusCode msg.payload, t⟩)).2 = none ∧ ¬ reader.Answers msg := by
  have htype : msg.msgType ≠ .serverToGatewayCommandResponse ∧ msg.msgType ≠ .serverToGatewayAck := by
    rcases htimed with ⟨htype, -⟩ | htype
    · rw [htype]
      decide
    · rw [htype]
      decide
  cases reader with
  | connect =>
    rw [receive]
    by_cases hreply : isLoginReply msg
    · rw [if_pos ⟨(accepted_iff htimed t).mpr hreply, rfl⟩]
      exact .inl ⟨rfl, .inr ⟨rfl, hreply⟩⟩
    · rw [if_neg fun h => hreply ((accepted_iff htimed t).mp h.1)]
      refine .inr ⟨rfl, ?_⟩
      rintro (⟨⟨⟩⟩ | ⟨-, h⟩)
      exact hreply h
  | readLoop =>
    rw [receive, if_pos ⟨htype.2, rfl⟩]
    exact .inl ⟨rfl, .inl rfl⟩
  | send =>
    rw [receive, if_neg htype.1]
    exact .inr ⟨rfl, by rintro (⟨⟨⟩⟩ | ⟨⟨⟩, -⟩)⟩
  | authenticate | sendKeepalive => exact .inr ⟨rfl, by rintro (⟨⟨⟩⟩ | ⟨⟨⟩, -⟩)⟩
  | idle | stopped | closed => cases hreads

theorem receive_eq_timerKey_iff (hreads : reader.reads) (htimed : Timed msg)
    (hlength : msg.timestamp.length < timestampSize) (stamp : Time) (transactionId : Option Nat) :
    (receive true reader (readFrame stamp (.message msg transactionId))).2 = some (timerKey msg) ↔
      reader.Answers msg ∧ ∃ t : Time, msg.timestamp = t.text := by
  rw [timerKey_eq hlength]
  constructor
  · intro h
    cases hdata : unmarshalJSON (printString msg.timestamp) with
    | none =>
      have hfail : (receive true reader none).2 = none := by cases reader <;> rfl
      rw [readFrame, hdata, Option.map_none, hfail] at h
      cases h
    | some t =>
      rw [readFrame, hdata, Option.map_some] at h
      rcases receive_timed hreads htimed t with ⟨htext, hanswers⟩ | ⟨hnone, -⟩
      · exact ⟨hanswers, t, Option.some.inj (h.symm.trans htext)⟩
      · rw [hnone] at h
        cases h
  · rintro ⟨hanswers, t, ht⟩
    rw [readFrame_text ht]
    rcases receive_timed hreads htimed t with ⟨htext, -⟩ | ⟨-, hnot⟩
    · rw [htext, ht]
    · exact absurd hanswers hnot

open KeyedTable TimerManager

variable {key : String} {now : Nat} {r r' r'' : Reactor} {A : String → Prop} {frame : Frame}

def Carries (key : String) (frame : Frame) : Prop :=
  ∃ msg transactionId, frame = .message msg transactionId ∧ Timed msg ∧ timerKey msg = key

def Repeats (sid : String) (c : Callback) : Prop :=
  ∀ key frame retryCount maxRetries, c = .ackTimeout sid key frame retryCount maxRetries → Carries key frame

def Sane (sid : String) (t : Timers) : Prop := ∀ k e, t.entries.find? k = some e → Repeats sid e.callback

def Untimed (batches : List Batch) : Prop := ∀ batch ∈ batches, needAck batch.resp = false

structure Effect (sid : String) (A : String → Prop) (r r' : Reactor) : Prop where
  timers : ∃ new, sentTo sid r' = sentTo sid r ++ new ∧
    ∀ key e, r'.timers.entries.find? ⟨.ack, sid, key⟩ = some e →
      r.timers.entries.find? ⟨.ack, sid, key⟩ = some e ∨ A key ∨ ∃ frame ∈ new, Carries key frame
  callbacks : Sane sid r.timers → Sane sid r'.timers
  posted : Untimed r.posted → Untimed r'.posted

theorem Effect.of_drops (h : OnlyDrops r r') : Effect sid A r r' where
  timers := ⟨[], by rw [sentTo, h.sent, append_nil, sentTo], fun key e he => .inl (h.timers _ e he)⟩
  callbacks hsane k e he := hsane k e (h.timers k e he)
  posted hu := by rwa [h.posted]

theorem Effect.refl (r : Reactor) : Effect sid A r r := .of_drops (.refl r)

theorem Effect.trans (h : Effect sid A r r') (h' : Effect sid A r' r'') : Effect sid A r r'' where
  timers := by
    obtain ⟨new, hnew, htimers⟩ := h.timers
    obtain ⟨new', hnew', htimers'⟩ := h'.timers
    refine ⟨new ++ new', by rw [hnew', hnew, append_assoc], ?_⟩
    intro key e he
    rcases htimers' key e he with he | ha | ⟨frame, hmem, hcarries⟩
    · rcases htimers key e he with he | ha | ⟨frame, hmem, hcarries⟩
      · exact .inl he
      · exact .inr (.inl ha)
      · exact .inr (.inr ⟨frame, mem_append_left _ hmem, hcarries⟩)
    · exact .inr (.inl ha)
    · exact .inr (.inr ⟨frame, mem_append_right _ hmem, hcarries⟩)
  callbacks hs := h'.callbacks (h.callbacks hs)
  posted hu := h'.posted (h.posted hu)

theorem sentTo_sendToSession (sessionId : String) (data : Frame) : sentTo sid (sendToSession r sessionId data) =
    sentTo sid r ++ if sessionId = sid ∧ hasSession r.sessions sid then [data] else [] := by
  rw [sendToSession, hasSession]
  cases hinfo : getSessionInfo r.sessions sessionId with
  | none =>
    rw [if_neg, append_nil]
    rintro ⟨rfl, hsome⟩
    rw [← getSessionInfo, hinfo] at hsome
    cases hsome
  | some info =>
    have hid : info.sessionId = sessionId := (Table.find?_eq_some.mp hinfo).2
    simp only [sentTo, filter_append, map_append, append_cancel_left_eq]
    by_cases hs : sessionId = sid
    · subst hs
      rw [← getSessionInfo, hinfo, if_pos ⟨rfl, rfl⟩, filter_singleton, hid, decide_eq_true rfl]
      rfl
    · rw [if_neg (fun h => hs h.1), filter_singleton, hid, decide_eq_false hs]
      rfl

variable {timeout : Nat}

theorem sane_insertTimer {t : Timers} {k : TimerKey} {c : Callback} (h : Sane sid t)
    (hc : Repeats sid c) : Sane sid (insertTimer t now k timeout c) := by
  intro k' e he
  rw [find?_insertTimer] at he
  split at he
  · cases he
    exact hc
  · exact h k' e he

variable {sessionId : String} {retryCount maxRetries : Nat}

theorem repeats_ackTimeout
    (h : sessionId = sid → Carries key frame) :
    Repeats sid (.ackTimeout sessionId key frame retryCount maxRetries) := by
  rintro key frame retryCount maxRetries ⟨⟩
  exact h rfl

theorem effect_startAckTimer (hcarries : sessionId = sid → Carries key frame) (h : sessionId = sid → A key) :
    Effect sid A r (Server.startAckTimer now r sessionId key timeout frame retryCount maxRetries) where
  timers := by
    refine ⟨[], (append_nil _).symm, fun key' e he => ?_⟩
    rw [Server.startAckTimer, TimerManager.startAckTimer, find?_insertTimer] at he
    split at he
    · next hkey =>
      obtain ⟨-, rfl, rfl⟩ := TimerKey.mk.inj hkey
      exact .inr (.inl (h rfl))
    · exact .inl he
  callbacks hs := sane_insertTimer hs (repeats_ackTimeout hcarries)
  posted h := h

theorem effect_sendTimed
    (hsession : sessionId = sid → hasSession r.sessions sid) (hcarries : sessionId = sid → Carries key frame) :
    Effect sid A r (Server.startAckTimer now (sendToSession r sessionId frame) sessionId key timeout frame retryCount
      maxRetries) where
  timers := by
    refine ⟨_, sentTo_sendToSession sessionId frame, fun key' e he => ?_⟩
    rw [Server.startAckTimer, TimerManager.startAckTimer, find?_insertTimer, sendToSession_timers] at he
    split at he
    · next hkey =>
      obtain ⟨-, rfl, rfl⟩ := TimerKey.mk.inj hkey
      refine .inr (.inr ⟨frame, ?_, hcarries rfl⟩)
      rw [if_pos ⟨rfl, hsession rfl⟩]
      exact mem_singleton_self frame
    · exact .inl he
  callbacks hs := by
    refine sane_insertTimer ?_ (repeats_ackTimeout hcarries)
    rwa [sendToSession_timers]
  posted h := by
    change Untimed (sendToSession r sessionId frame).posted
    rwa [sendToSession_posted]

theorem effect_keepalive : Effect sid A r { r with
    timers := insertTimer r.timers now ⟨.keepalive, sessionId, ""⟩ timeout (.keepaliveTimeout sessionId) } where
  timers := by
    refine ⟨[], (append_nil _).symm, fun key' e he => .inl ?_⟩
    rwa [find?_insertTimer] at he
  callbacks hs := by
    refine sane_insertTimer hs ?_
    rintro key frame retryCount maxRetries ⟨⟩
  posted h := h

def Grants (sid : String) (A : String → Prop) : Act → Prop
  | .timed sessionId key frame => sessionId = sid → Carries key frame
  | .start sessionId key frame => sessionId = sid → Carries key frame ∧ A key
  | .post batch => needAck batch.resp = false
  | _ => True

theorem Effect.of_does {O : Reactor → Op → Prop} {P : Sessions → Act → Prop} (h : Does O P r r')
    (hP : ∀ m act, P m act → Grants sid A act) : Effect sid A r r' := by
  induction h with
  | refl r => exact .refl r
  | drop ht => exact .of_drops ⟨rfl, ht, rfl⟩
  | send =>
    refine ⟨⟨_, sentTo_sendToSession _ _, fun _ _ he => .inl ?_⟩, fun h => ?_, fun h => ?_⟩
    · rwa [sendToSession_timers] at he
    · rwa [sendToSession_timers]
    · rwa [sendToSession_posted]
  | timed now timeout retryCount maxRetries hinfo hact =>
    refine effect_sendTimed ?_ (hP _ _ hact)
    rintro rfl
    rw [hasSession, hinfo]
    rfl
  | start now timeout retryCount maxRetries hact =>
    exact effect_startAckTimer (fun hs => (hP _ _ hact hs).1) fun hs => (hP _ _ hact hs).2
  | keepalive => exact effect_keepalive
  | post hact =>
    refine ⟨⟨[], (append_nil _).symm, fun _ _ he => .inl he⟩, id, fun hu batch hmem => ?_⟩
    exact (mem_append.mp hmem).elim (hu batch) fun hnew => hP _ _ (hact batch hnew)
  | wake => exact ⟨⟨[], (append_nil _).symm, fun _ _ he => .inl he⟩, id, fun _ _ hmem => absurd hmem not_mem_nil⟩
  | table => exact .of_drops (onlyDrops_sessions _)
  | request => exact .of_drops (onlyDrops_pushRequest _)
  | ended => exact .of_drops ((onlyDrops_notifyDisconnect _).trans (onlyDrops_sessions _))
  | trans _ _ ih ih' => exact ih.trans ih'

variable {resp : Slot}

theorem grants_batch {batch : Batch} {act : Act} (h : needAck batch.resp = false) (hact : batch.Acts act) :
    Grants sid A act := by
  obtain ⟨target, -, rfl | ⟨hack, -⟩⟩ := hact
  · trivial
  · cases h.symm.trans hack

structure Serves (sid : String) (A : String → Prop) (r : Reactor) (resp : Slot) : Prop where
  broadcast : resp.command = .broadcast → needAck resp = false
  send : resp.command = .send → needAck resp → sendTarget r.sessions resp = some sid →
    Carries resp.timerKey resp.payload
  start : resp.command = .startAckTimer → resp.sessionId = sid → Carries resp.timerKey resp.payload ∧ A resp.timerKey

theorem effect_dispatchResponse (hsid : sid ≠ "") (h : Serves sid A r resp) :
    Effect sid A r (dispatchResponse now r resp) := by
  refine .of_does (does_dispatch resp) ?_
  rintro _ act ⟨rfl, -, hact⟩
  cases hact with
  | timed hc ht hack =>
    rintro rfl
    exact h.send hc hack ht
  | nobody => exact fun hs => absurd hs.symm hsid
  | start hc => exact h.start hc
  | batch hc hact => exact grants_batch (h.broadcast hc) hact
  | post hc hbatch =>
    obtain ⟨k, -, rfl⟩ := mem_map.mp hbatch
    exact h.broadcast hc
  | send | keepalive | ends => trivial

theorem effect_event (e : Event) (hposted : Untimed r.posted) (hsane : Sane sid r.timers) :
    Effect sid A r (e.apply cfg r) := by
  refine .of_does (does_event e) fun m act hact => ?_
  cases e with
  | hangup sessionId =>
    obtain ⟨rfl, -⟩ := hact
    trivial
  | expire now =>
    obtain ⟨e, he, hact⟩ := hact
    have hrepeats := hsane e.key e (find?_of_mem_dueEntries he)
    generalize e.callback = c at hact hrepeats
    cases hact with
    | resend =>
      rintro rfl
      exact hrepeats _ _ _ _ rfl
    | giveUp | silence => trivial
  | wakeup now =>
    obtain ⟨-, rfl | ⟨batch, hbatch, hact⟩⟩ := hact
    · trivial
    · exact grants_batch (hposted batch hbatch) hact
  | accept | frame | datagram => exact hact.elim

end Logistics.BridgeAcks
