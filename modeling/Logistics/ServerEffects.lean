import Logistics.Server
import Logistics.SessionIndex

namespace Logistics.Server

open Ipc SessionManager TimerManager Worker Reachability List

inductive Evolves (A : Reactor → Op → Prop) : Reactor → Reactor → Prop
  | same {r r' : Reactor} (hs : r'.sessions = r.sessions) (hq : r'.requests = r.requests) : Evolves A r r'
  | table {r r' : Reactor} (op : Op) (hop : A r op) (hs : r'.sessions = op.apply r.sessions)
      (hq : r'.requests = r.requests) : Evolves A r r'
  | request {r r' : Reactor} (protocol : ProtocolType) {s : String} {info : SessionInfo}
      (hinfo : r.sessions.sessions.find? s = some info) (rawJson : String) (payloadLen : Nat)
      (hs : r'.sessions = r.sessions)
      (hq : r'.requests = r.requests ++ [requestFor r.sessions protocol s rawJson payloadLen]) : Evolves A r r'
  | ended {r r' : Reactor} {s : String} {info : SessionInfo} (hinfo : r.sessions.sessions.find? s = some info) (op : Op)
      (hop : op = .remove s ∨ op = .blacklist s) (hs : r'.sessions = op.apply r.sessions)
      (hq : r'.requests = r.requests ∨ info.username ≠ "" ∧ r'.requests = r.requests ++ [disconnectOf info]) :
      Evolves A r r'
  | trans {r r' r'' : Reactor} (h : Evolves A r r') (h' : Evolves A r' r'') : Evolves A r r''

variable {A : Reactor → Op → Prop} {cfg : Config} {now : Nat} {r r' : Reactor} {s : String} {info : SessionInfo}

theorem Evolves.refl (r : Reactor) : Evolves A r r := .same rfl rfl

theorem Evolves.mono {B : Reactor → Op → Prop} (h : Evolves A r r') (hsub : ∀ r op, A r op → B r op) :
    Evolves B r r' := by
  induction h with
  | same hs hq => exact .same hs hq
  | table op hop hs hq => exact .table op (hsub _ op hop) hs hq
  | request protocol hinfo rawJson payloadLen hs hq => exact .request protocol hinfo rawJson payloadLen hs hq
  | ended hinfo op hop hs hq => exact .ended hinfo op hop hs hq
  | trans _ _ ih ih' => exact ih.trans ih'

theorem Evolves.sound (h : Evolves A r r') (hs : Sound r.sessions) : Sound r'.sessions := by
  induction h with
  | same hr _ => rwa [hr]
  | table op _ hr _ | ended _ op _ hr _ => exact hr ▸ hs.apply op
  | request _ _ _ _ hr _ => rwa [hr]
  | trans _ _ ih ih' => exact ih' (ih hs)

@[simp] theorem sendToSession_requests (sessionId : String) (data : Frame) :
    (sendToSession r sessionId data).requests = r.requests := by
  rw [sendToSession]
  split <;> rfl

theorem pushRequest_cases (req : RequestSlot) :
    (pushRequest r req).requests = r.requests ∨ (pushRequest r req).requests = r.requests ++ [req] := by
  rw [pushRequest]
  split
  · exact .inr rfl
  · exact .inl rfl

theorem notifyDisconnect_requests (info : SessionInfo) : (notifyDisconnect r info).requests = r.requests ∨
    info.username ≠ "" ∧ (notifyDisconnect r info).requests = r.requests ++ [disconnectOf info] := by
  rw [notifyDisconnect]
  split
  · exact .inl rfl
  · next hnot => exact (pushRequest_cases _).imp_right fun hq => ⟨fun he => hnot (.inr he), hq⟩

theorem broadcastTo_requests (resp : Slot) (target : String) :
    (broadcastTo now resp r target).requests = r.requests := by
  rw [broadcastTo]
  split
  · dsimp only
    split <;> exact sendToSession_requests _ _
  · rfl

theorem sent_pushRequest (req : RequestSlot) : (pushRequest r req).sent = r.sent := by
  rw [pushRequest]
  split <;> rfl

theorem sent_notifyDisconnect (info : SessionInfo) : (notifyDisconnect r info).sent = r.sent := by
  rw [notifyDisconnect]
  split
  · rfl
  · exact sent_pushRequest _

@[simp] theorem pushRequest_posted (req : RequestSlot) : (pushRequest r req).posted = r.posted := by
  rw [pushRequest]
  split <;> rfl

@[simp] theorem notifyDisconnect_posted (info : SessionInfo) : (notifyDisconnect r info).posted = r.posted := by
  rw [notifyDisconnect]
  split
  · rfl
  · exact pushRequest_posted _

@[simp] theorem sendToSession_posted (sessionId : String) (data : Frame) :
    (sendToSession r sessionId data).posted = r.posted := by
  rw [sendToSession]
  split <;> rfl

structure OnlyDrops (r r' : Reactor) : Prop where
  sent : r'.sent = r.sent
  timers : ∀ k e, r'.timers.entries.find? k = some e → r.timers.entries.find? k = some e
  posted : r'.posted = r.posted

theorem OnlyDrops.refl (r : Reactor) : OnlyDrops r r := ⟨rfl, fun _ _ he => he, rfl⟩

theorem OnlyDrops.trans {r'' : Reactor} (h : OnlyDrops r r') (h' : OnlyDrops r' r'') : OnlyDrops r r'' where
  sent := h'.sent.trans h.sent
  timers k e he := h.timers k e (h'.timers k e he)
  posted := h'.posted.trans h.posted

theorem onlyDrops_sessions (m : Sessions) : OnlyDrops r { r with sessions := m } := ⟨rfl, fun _ _ he => he, rfl⟩

theorem onlyDrops_pushRequest (req : RequestSlot) : OnlyDrops r (pushRequest r req) :=
  ⟨sent_pushRequest req, fun _ _ he => by rwa [pushRequest_timers] at he, pushRequest_posted req⟩

theorem onlyDrops_notifyDisconnect (info : SessionInfo) : OnlyDrops r (notifyDisconnect r info) :=
  ⟨sent_notifyDisconnect info, fun _ _ he => by rwa [notifyDisconnect_timers] at he, notifyDisconnect_posted info⟩

theorem onlyDrops_clearSessionTimers (s : String) : OnlyDrops r (clearSessionTimers r s) := by
  refine ⟨rfl, fun k e he => ?_, rfl⟩
  rw [clearSessionTimers, find?_clearSessionTimers] at he
  split at he
  · cases he
  · exact he

def Event.operates (r : Reactor) : Event → Reactor → Op → Prop
  | .accept, r', op => r' = r ∧ op = .create
  | .datagram sender _ _, r', op => r' = r ∧ op = .udp sender
  | _, _, _ => False

def slotOperates (r : Reactor) (resp : Slot) (r' : Reactor) (op : Op) : Prop :=
  r' = r ∧ (resp.command = .markAuthenticated ∧ op = .mark resp.sessionId resp.clientType resp.username ∨
    resp.command = .blacklist ∧ op = .blacklist resp.sessionId)

inductive Act
  | send (sessionId : String) (payload : Frame)
  | timed (sessionId timerKey : String) (payload : Frame)
  | start (sessionId timerKey : String) (payload : Frame)
  | keepalive (sessionId : String)
  | ends (sessionId : String)
  | post (batch : Batch)
  | wake

inductive Does (A : Reactor → Op → Prop) (P : Sessions → Act → Prop) : Reactor → Reactor → Prop
  | refl (r : Reactor) : Does A P r r
  | drop {r : Reactor} {t : Timers}
      (ht : ∀ k e, t.entries.find? k = some e → r.timers.entries.find? k = some e) : Does A P r { r with timers := t }
  | send {r : Reactor} {s : String} {info : SessionInfo} {data : Frame}
      (hinfo : r.sessions.sessions.find? s = some info) (h : P r.sessions (.send s data)) :
      Does A P r (sendToSession r s data)
  | timed {r : Reactor} {s key : String} {info : SessionInfo} {data : Frame} (now timeout retryCount maxRetries : Nat)
      (hinfo : r.sessions.sessions.find? s = some info) (h : P r.sessions (.timed s key data)) :
      Does A P r (startAckTimer now (sendToSession r s data) s key timeout data retryCount maxRetries)
  | start {r : Reactor} {s key : String} {data : Frame} (now timeout retryCount maxRetries : Nat)
      (h : P r.sessions (.start s key data)) :
      Does A P r (startAckTimer now r s key timeout data retryCount maxRetries)
  | keepalive {r : Reactor} {s : String} (now timeout : Nat) (h : P r.sessions (.keepalive s)) :
      Does A P r { r with timers := insertTimer r.timers now ⟨.keepalive, s, ""⟩ timeout (.keepaliveTimeout s) }
  | post {r : Reactor} {batches : List Batch} (h : ∀ batch ∈ batches, P r.sessions (.post batch)) :
      Does A P r { r with posted := r.posted ++ batches }
  | wake {r : Reactor} (h : P r.sessions .wake) : Does A P r { r with posted := [] }
  | table {r : Reactor} (op : Op) (hop : A r op) : Does A P r { r with sessions := op.apply r.sessions }
  | request {r : Reactor} (protocol : ProtocolType) {s : String} {info : SessionInfo}
      (hinfo : r.sessions.sessions.find? s = some info) (rawJson : String) (payloadLen : Nat) :
      Does A P r (pushRequest r (requestFor r.sessions protocol s rawJson payloadLen))
  | ended {r : Reactor} {s : String} {info : SessionInfo} (hinfo : r.sessions.sessions.find? s = some info) (op : Op)
      (hop : op = .remove s ∨ op = .blacklist s ∧ info.type = .udp) (h : P r.sessions (.ends s)) :
      Does A P r { notifyDisconnect r info with sessions := op.apply (notifyDisconnect r info).sessions }
  | trans {r r' r'' : Reactor} (h : Does A P r r') (h' : Does A P r' r'') : Does A P r r''

variable {P : Sessions → Act → Prop}

theorem Does.evolves (h : Does A P r r') : Evolves A r r' := by
  induction h with
  | send | timed => exact .same (sendToSession_sessions _ _) (sendToSession_requests _ _)
  | refl | drop | start | keepalive | post | wake => exact .same rfl rfl
  | table op hop => exact .table op hop rfl rfl
  | @request r protocol s info hinfo rawJson payloadLen =>
    rcases pushRequest_cases (r := r) (requestFor r.sessions protocol s rawJson payloadLen) with hq | hq
    · exact .same (pushRequest_sessions _) hq
    · exact .request protocol hinfo rawJson payloadLen (pushRequest_sessions _) hq
  | ended hinfo op hop =>
    refine .ended hinfo op (hop.imp_right And.left) ?_ (notifyDisconnect_requests _)
    rw [notifyDisconnect_sessions]
  | trans _ _ ih ih' => exact ih.trans ih'

theorem Does.sent (h : Does A P r r') : r.sent ⊆ r'.sent := by
  induction h with
  | @send r s info data hinfo | @timed r s key info data now timeout retryCount maxRetries hinfo =>
    have hsent : (sendToSession r s data).sent = r.sent ++ [⟨info, data⟩] := by rw [sendToSession, getSessionInfo, hinfo]
    exact fun x hx => hsent.symm ▸ mem_append_left _ hx
  | refl | drop | start | keepalive | post | wake | table => exact Subset.refl _
  | request =>
    rw [sent_pushRequest]
    exact Subset.refl _
  | ended =>
    rw [sent_notifyDisconnect]
    exact Subset.refl _
  | trans _ _ ih ih' => exact Subset.trans ih ih'

theorem Does.posted (h : Does A P r r') (hwake : ∀ m, ¬ P m .wake) : r.posted <+: r'.posted := by
  induction h with
  | refl | drop | start | keepalive | table => exact prefix_rfl
  | send | timed => exact (sendToSession_posted _ _).symm ▸ prefix_rfl
  | post => exact prefix_append _ _
  | wake h => exact absurd h (hwake _)
  | request => exact (pushRequest_posted _).symm ▸ prefix_rfl
  | ended => exact (notifyDisconnect_posted _).symm ▸ prefix_rfl
  | trans _ _ ih ih' => exact ih.trans ih'

theorem does_clearSessionTimers (s : String) : Does A P r (clearSessionTimers r s) :=
  .drop (onlyDrops_clearSessionTimers s).timers

theorem does_handleKeepaliveTimeout (h : P r.sessions (.ends s)) : Does A P r (handleKeepaliveTimeout r s) := by
  rw [handleKeepaliveTimeout]
  refine (does_clearSessionTimers s).trans ?_
  split
  · exact .refl _
  · next info hinfo => exact .ended hinfo (.remove s) (.inl rfl) h

inductive CallbackActs : Callback → Act → Prop
  | resend {s key : String} {payload : Frame} {retryCount maxRetries : Nat} (h : retryCount < lastRetry maxRetries) :
      CallbackActs (.ackTimeout s key payload retryCount maxRetries) (.timed s key payload)
  | giveUp {s key : String} {payload : Frame} {retryCount maxRetries : Nat} (h : lastRetry maxRetries ≤ retryCount) :
      CallbackActs (.ackTimeout s key payload retryCount maxRetries) (.ends s)
  | silence {s : String} : CallbackActs (.keepaliveTimeout s) (.ends s)

theorem does_fire {c : Callback} (h : ∀ act, CallbackActs c act → P r.sessions act) :
    Does A P r (fire cfg now r c) := by
  cases c with
  | keepaliveTimeout s => exact does_handleKeepaliveTimeout (h _ .silence)
  | ackTimeout s timerKey payload retryCount maxRetries =>
    rw [fire, handleAckTimeout]
    split
    · exact .refl r
    next info hinfo =>
    split
    · next hlast =>
      have hends : P r.sessions (.ends s) := h _ (.giveUp hlast)
      refine (does_clearSessionTimers s).trans ?_
      split
      · exact .ended (r := clearSessionTimers r s) hinfo (.remove s) (.inl rfl) hends
      · next htype =>
        refine .ended (r := clearSessionTimers r s) hinfo (.blacklist s) (.inr ⟨rfl, ?_⟩) hends
        cases hudp : info.type with
        | tcp => exact absurd hudp htype
        | udp => rfl
    · next hlast => exact .timed now _ _ _ hinfo (h _ (.resend (Nat.not_le.mp hlast)))

def Batch.Acts (batch : Batch) (act : Act) : Prop :=
  ∃ target ∈ batch.targets, act = .send target batch.resp.payload ∨
    needAck batch.resp = true ∧ act = .timed target batch.resp.timerKey batch.resp.payload

theorem does_foldl {α : Type} {f : Reactor → α → Reactor} (hf : ∀ r x, (f r x).sessions = r.sessions) {l : List α}
    (h : ∀ x ∈ l, ∀ r', r'.sessions = r.sessions → Does A P r' (f r' x)) : Does A P r (l.foldl f r) := by
  induction l generalizing r with
  | nil => exact .refl r
  | cons x l ih =>
    refine (h x mem_cons_self r rfl).trans (ih fun y hy r' hr => ?_)
    exact h y (mem_cons_of_mem x hy) r' (hr.trans (hf r x))

theorem does_sendBatch {batch : Batch} (h : ∀ act, batch.Acts act → P r.sessions act) :
    Does A P r (sendBatch now r batch) := by
  refine does_foldl (fun _ _ => broadcastTo_sessions _ _) fun target htarget r' hr => ?_
  rw [← hr] at h
  rw [broadcastTo]
  split
  · next hhas =>
    obtain ⟨info, hinfo⟩ := Option.isSome_iff_exists.mp hhas
    dsimp only
    split
    · next hack => exact .timed now _ _ _ hinfo (h _ ⟨target, htarget, .inr ⟨hack.1, rfl⟩⟩)
    · exact .send hinfo (h _ ⟨target, htarget, .inl rfl⟩)
  · exact .refl r'

def Event.Acts (r : Reactor) : Event → Sessions → Act → Prop
  | .hangup sessionId, m, act =>
    act = .ends sessionId ∧ ∃ info, m.sessions.find? sessionId = some info ∧ info.type = .tcp
  | .expire now, _, act => ∃ e ∈ dueEntries r.timers now, CallbackActs e.callback act
  | .wakeup _, m, act => m = r.sessions ∧ (act = .wake ∨ ∃ batch ∈ r.posted, batch.Acts act)
  | _, _, _ => False

theorem does_event (e : Event) : Does (e.operates r) (e.Acts r) r (e.apply cfg r) := by
  cases e with
  | accept => exact .table .create ⟨rfl, rfl⟩
  | frame s rawJson =>
    rw [Event.apply, onFrame]
    split
    · exact .refl r
    · next info hinfo =>
      split
      · exact .request .tcp hinfo rawJson bufferSize
      · exact .refl r
  | hangup s =>
    rw [Event.apply, onHangup]
    split
    · exact .refl r
    · next info hinfo =>
      split
      · next htype => exact .ended hinfo (.remove s) (.inl rfl) ⟨rfl, info, hinfo, htype⟩
      · exact .refl r
  | datagram sender rawJson payloadLen =>
    have hfind := find?_getOrCreateUdpSession r.sessions sender (makeUdpSessionId sender)
    rw [if_pos rfl] at hfind
    refine .trans (.table (.udp sender) ⟨rfl, rfl⟩) ?_
    exact .request (r := { r with sessions := _ }) .udp hfind rawJson payloadLen
  | expire now =>
    refine .trans (.drop (t := withoutDue r.timers now) fun k e he => (find?_withoutDue.mp he).1) ?_
    refine foldl_relates .refl .trans _ fun c hc r => does_fire fun act hact => ?_
    obtain ⟨e, he, rfl⟩ := mem_map.mp hc
    exact ⟨e, he, hact⟩
  | wakeup now =>
    refine .trans (.wake ⟨rfl, .inl rfl⟩) (does_foldl (fun _ _ => sendBatch_sessions _) fun batch hbatch r' hr => ?_)
    exact does_sendBatch fun act hact => ⟨hr, .inr ⟨batch, hbatch, hact⟩⟩

theorem usable_of_findSessionByUsername {m : Sessions} {u : String} (h : findSessionByUsername m u = some s) :
    ∃ info, m.sessions.find? s = some info ∧ info.isAuthenticated = true ∧ info.isBlacklisted = false := by
  rw [findSessionByUsername] at h
  split at h
  · cases h
  split at h
  · cases h
  next info hinfo =>
  split at h
  · next husable =>
    cases h
    exact ⟨info, hinfo, husable⟩
  · cases h

inductive SlotActs (m : Sessions) (resp : Slot) : Act → Prop
  | send {target : String} (hc : resp.command = .send) (ht : sendTarget m resp = some target) :
      SlotActs m resp (.send target resp.payload)
  | timed {target : String} (hc : resp.command = .send) (ht : sendTarget m resp = some target)
      (hack : needAck resp = true) : SlotActs m resp (.timed target resp.timerKey resp.payload)
  | nobody (hc : resp.command = .send) (ht : sendTarget m resp = some "") (hack : needAck resp = true) :
      SlotActs m resp (.start "" resp.timerKey resp.payload)
  | start (hc : resp.command = .startAckTimer) : SlotActs m resp (.start resp.sessionId resp.timerKey resp.payload)
  | keepalive (hc : resp.command = .startKeepaliveTimer ∨ resp.command = .resetKeepaliveTimer) :
      SlotActs m resp (.keepalive resp.sessionId)
  | ends (hc : resp.command = .disconnect) : SlotActs m resp (.ends resp.sessionId)
  | batch {act : Act} (hc : resp.command = .broadcast)
      (h : Batch.Acts ⟨(getAuthenticatedSessions m).take broadcastBatchSize, resp⟩ act) : SlotActs m resp act
  | post {batch : Batch} (hc : resp.command = .broadcast)
      (h : batch ∈ laterBatches (getAuthenticatedSessions m) resp) : SlotActs m resp (.post batch)

theorem does_dispatchSend {resp : Slot} (hc : resp.command = .send) (hd : ¬ Discarded r.sessions resp)
    (h : ∀ act, SlotActs r.sessions resp act → P r.sessions act) : Does A P r (dispatchSend now r resp) := by
  rw [dispatchSend]
  split
  · exact .refl r
  next target ht =>
  cases hinfo : r.sessions.sessions.find? target with
  | some info =>
    split
    · next hack => exact .timed now _ _ _ hinfo (h _ (.timed hc ht hack))
    · exact .send hinfo (h _ (.send hc ht))
  | none =>
    have hsame : sendToSession r target resp.payload = r := by rw [sendToSession, getSessionInfo, hinfo]
    have hnobody : target = "" := by
      rw [sendTarget] at ht
      split at ht
      · obtain ⟨info, hsome, -⟩ := usable_of_findSessionByUsername ht
        cases hinfo.symm.trans hsome
      · cases ht
        by_contra hne
        refine hd ⟨hne, fun hmark => ?_, ?_⟩
        · cases hc.symm.trans hmark
        · rw [hasSession, hinfo]
          rfl
    subst hnobody
    rw [hsame]
    split
    · next hack => exact .start now _ _ _ (h _ (.nobody hc ht hack))
    · exact .refl r

theorem find?_of_cancelTimer {t : Timers} {key k : TimerKey} {e : TimerEntry}
    (he : (cancelTimer t key).entries.find? k = some e) : t.entries.find? k = some e := by
  rw [find?_cancelTimer] at he
  split at he
  · cases he
  · exact he

theorem does_startKeepaliveTimer (timeout : Nat) (h : P r.sessions (.keepalive s)) :
    Does A P r { r with timers := startKeepaliveTimer r.timers now s timeout } := by
  have hcut : Does A P r { r with timers := { cancelKeepaliveTimer r.timers s with
      keepaliveTimeouts := (cancelKeepaliveTimer r.timers s).keepaliveTimeouts.put (s, timeout) } } :=
    .drop fun _ _ => find?_of_cancelTimer
  exact hcut.trans (.keepalive now timeout h)

theorem does_dispatch (resp : Slot) : Does (slotOperates r resp)
    (fun m act => m = r.sessions ∧ ¬ Discarded m resp ∧ SlotActs m resp act) r (dispatchResponse now r resp) := by
  rw [dispatchResponse]
  split
  · exact .refl r
  next hd =>
  cases hc : resp.command with
  | send => exact does_dispatchSend hc hd fun act hact => ⟨rfl, hd, hact⟩
  | startAckTimer => exact .start now _ _ _ ⟨rfl, hd, .start hc⟩
  | cancelAckTimer => exact .drop fun _ _ => find?_of_cancelTimer
  | clearTimers => exact does_clearSessionTimers _
  | blacklist => exact .table (.blacklist resp.sessionId) ⟨rfl, .inr ⟨hc, rfl⟩⟩
  | markAuthenticated => exact .table (.mark resp.sessionId resp.clientType resp.username) ⟨rfl, .inl ⟨hc, rfl⟩⟩
  | startKeepaliveTimer => exact does_startKeepaliveTimer _ ⟨rfl, hd, .keepalive (.inl hc)⟩
  | resetKeepaliveTimer =>
    dsimp only
    rw [resetKeepaliveTimer]
    split
    · exact .refl r
    · exact .keepalive now _ ⟨rfl, hd, .keepalive (.inr hc)⟩
  | disconnect => exact does_handleKeepaliveTimeout ⟨rfl, hd, .ends hc⟩
  | broadcast =>
    refine (does_sendBatch fun act hact => ⟨rfl, hd, .batch hc hact⟩).trans (.post fun batch hbatch => ?_)
    rw [sendBatch_sessions]
    exact ⟨rfl, hd, .post hc hbatch⟩
  | mqttPublishRoute => exact .refl r

end Logistics.Server
