import Logistics.EmittedOrders
import Logistics.RetryTimers
import Logistics.ServerSystem

namespace Logistics.StrandedOrders

open SessionManager TimerManager Worker Server RetryTimers List

variable {cfg : Config} {now : Nat} {r : Reactor} {m m' : Sessions} {s u : String} {w : Waiting} {c : Callback}
  {callbacks : List Callback} {st : State}

def Live (m : Sessions) (s u : String) : Prop := ∃ info, m.sessions.find? s = some info ∧ Eligible u info

theorem Live.congr (h : Live m s u) (he : m'.sessions.find? s = m.sessions.find? s) : Live m' s u := by
  obtain ⟨info, hinfo, helig⟩ := h
  exact ⟨info, he.trans hinfo, helig⟩

theorem Live.hasSession (h : Live m s u) : hasSession m s = true := by
  obtain ⟨info, hinfo, -⟩ := h
  rw [SessionManager.hasSession, hinfo]
  rfl

theorem Live.create (hs : Sound m) (h : Live m s u) : Live (createSession m).2 s u := by
  apply h.congr
  rw [find?_createSession, if_neg]
  rintro rfl
  obtain ⟨info, hinfo, -⟩ := h
  rw [hs.fresh _ (Nat.lt_succ_self _)] at hinfo
  cases hinfo

theorem Live.udp (h : Live m s u) (endpoint : Address) : Live (getOrCreateUdpSession m endpoint).2 s u := by
  obtain ⟨info, hinfo, helig⟩ := h
  rw [Live, find?_getOrCreateUdpSession]
  split
  · rw [hinfo]
    exact ⟨_, rfl, helig⟩
  · exact ⟨info, hinfo, helig⟩

variable {v : String}

theorem Live.mark (h : Live m s u) {clientType username : String} (hu : v = s → username = u) :
    Live (markAuthenticated m v clientType username) s u := by
  obtain ⟨info, hinfo, helig⟩ := h
  rw [Live, find?_markAuthenticated]
  split
  · next he =>
    rw [hinfo]
    exact ⟨_, rfl, rfl, helig.2.1, hu he.symm⟩
  · exact ⟨info, hinfo, helig⟩

def GivesUp (s : String) : Callback → Prop
  | .ackTimeout sessionId _ _ retryCount maxRetries => sessionId = s ∧ lastRetry maxRetries ≤ retryCount
  | .keepaliveTimeout sessionId => sessionId = s

theorem find?_endSession (info : SessionInfo) (hv : v ≠ s) :
    (removeSession (notifyDisconnect r info) v).sessions.sessions.find? s = r.sessions.sessions.find? s ∧
      (blacklistSession (notifyDisconnect r info) v).sessions.sessions.find? s = r.sessions.sessions.find? s := by
  rw [Server.removeSession, Server.blacklistSession, find?_removeSession, find?_blacklistSession,
    if_neg hv.symm, if_neg hv.symm, notifyDisconnect_sessions]
  exact ⟨rfl, rfl⟩

theorem find?_handleKeepaliveTimeout (hv : v ≠ s) :
    (handleKeepaliveTimeout r v).sessions.sessions.find? s = r.sessions.sessions.find? s := by
  rw [handleKeepaliveTimeout]
  split
  · rfl
  · exact (find?_endSession (r := clearSessionTimers r v) _ hv).1

theorem find?_fire (h : ¬ GivesUp s c) :
    (fire cfg now r c).sessions.sessions.find? s = r.sessions.sessions.find? s := by
  cases c with
  | keepaliveTimeout v => exact find?_handleKeepaliveTimeout h
  | ackTimeout v timerKey payload retryCount maxRetries =>
    rw [fire, handleAckTimeout]
    split
    · rfl
    next info _ =>
    split
    · next hlast =>
      have hsame := find?_endSession (r := clearSessionTimers r v) info fun he => h ⟨he, hlast⟩
      split
      · exact hsame.1
      · exact hsame.2
    · rw [Server.startAckTimer, sendToSession_sessions]

theorem mem_awaiting_fire (hw : w ∈ st.awaiting) (hs : hasSession st.reactor.sessions w.sessionId = true)
    (h : ¬ GivesUp w.sessionId c) : w ∈ (st.fire cfg now c).awaiting := by
  cases c with
  | keepaliveTimeout v => exact ⟨hw, fun he => h he.symm⟩
  | ackTimeout v timerKey payload retryCount maxRetries =>
    rw [State.fire]
    split
    · exact Set.mem_insert_of_mem _ hw
    · next hgo =>
      refine ⟨hw, fun he => hgo ⟨he ▸ hs, ?_⟩⟩
      by_contra hlast
      exact h ⟨he.symm, Nat.not_lt.mp hlast⟩

theorem mem_awaiting_foldl (hw : w ∈ st.awaiting) (hs : hasSession st.reactor.sessions w.sessionId = true)
    (h : ∀ c ∈ callbacks, ¬ GivesUp w.sessionId c) : w ∈ (callbacks.foldl (State.fire cfg now) st).awaiting := by
  induction callbacks generalizing st with
  | nil => exact hw
  | cons c callbacks ih =>
    have hc := h c mem_cons_self
    refine ih (mem_awaiting_fire hw hs hc) ?_ fun x hx => h x (mem_cons_of_mem c hx)
    change (((fire cfg now st.reactor c).sessions.sessions.find? w.sessionId)).isSome = true
    rw [find?_fire hc]
    exact hs

theorem find?_foldl_fire (h : ∀ c ∈ callbacks, ¬ GivesUp s c) :
    (callbacks.foldl (fire cfg now) r).sessions.sessions.find? s = r.sessions.sessions.find? s := by
  induction callbacks generalizing r with
  | nil => rfl
  | cons c callbacks ih => rw [foldl_cons, ih fun x hx => h x (mem_cons_of_mem c hx), find?_fire (h c mem_cons_self)]

theorem pending_onTimerfdReady (hm : Matched r.timers) (hp : Pending r.timers w)
    (hs : hasSession r.sessions w.sessionId = true)
    (h : ∀ e ∈ dueEntries r.timers now, ¬ GivesUp w.sessionId e.callback) :
    Pending (onTimerfdReady cfg now r).timers w := by
  have hkept : Kept ⟨r, {w}⟩ := by
    rintro x rfl
    exact hp
  have hfired : Kept (((dueEntries r.timers now).map TimerEntry.callback).foldl (State.fire cfg now)
      ⟨{ r with timers := withoutDue r.timers now }, {w}⟩) := (Firing.start hm hkept now).foldl
  have hcallbacks : ∀ c ∈ (dueEntries r.timers now).map TimerEntry.callback, ¬ GivesUp w.sessionId c := by
    intro c hc
    obtain ⟨e, he, rfl⟩ := mem_map.mp hc
    exact h e he
  have hpending := hfired w (mem_awaiting_foldl (Set.mem_singleton w) hs hcallbacks)
  rwa [foldl_fire_reactor] at hpending

open KeyedTable JsonManager ServerSystem

variable {id : Nat} {r' : Reactor} {client : String} {resp : Slot}

def Carries (id : Nat) : Frame → Prop
  | .message msg (some transactionId) => isOrder msg.msgType = true ∧ transactionId = id
  | _ => False

/-- The order of the transaction was sent to a session over which the client can
still be reached, and its retry timer is pending. -/
structure SentOut (r : Reactor) (id : Nat) (client : String) (w : Waiting) : Prop where
  order : Carries id w.payload
  sent : ∃ x ∈ r.sent, x.info.sessionId = w.sessionId ∧ x.data = w.payload
  live : Live r.sessions w.sessionId (safeStrcpy credentialsSize client)
  pending : Pending r.timers w

theorem SentOut.keep (h : SentOut r id client w) (hsent : r.sent ⊆ r'.sent)
    (hlive : Live r'.sessions w.sessionId (safeStrcpy credentialsSize client)) (hp : Pending r'.timers w) :
    SentOut r' id client w := by
  obtain ⟨x, hx, hto⟩ := h.sent
  exact ⟨h.order, ⟨x, hsent hx, hto⟩, hlive, hp⟩

def EventSpares (r : Reactor) (w : Waiting) : Event → Prop
  | .hangup s => s ≠ w.sessionId
  | .expire now => ∀ e ∈ dueEntries r.timers now, ¬ GivesUp w.sessionId e.callback
  | .wakeup _ => ∀ x ∈ r.posted.flatMap (batchStarts r.sessions), w.key = x.key → w.payload = x.payload
  | _ => True

theorem SentOut.event (h : SentOut r id client w) (hs : Sound r.sessions) (hm : Matched r.timers) (e : Event)
    (hspares : EventSpares r w e) : SentOut (e.apply cfg r) id client w := by
  apply h.keep (does_event e).sent
  · cases e with
    | accept => exact h.live.create hs
    | frame s rawJson =>
      apply h.live.congr
      simp only [Event.apply, onFrame]
      split
      · rfl
      · split
        · rw [pushRequest_sessions]
        · rfl
    | hangup s =>
      apply h.live.congr
      simp only [Event.apply, onHangup]
      split
      · rfl
      · split
        · exact (find?_endSession _ hspares).1
        · rfl
    | datagram sender rawJson payloadLen =>
      simp only [Event.apply, onDatagram, pushRequest_sessions]
      exact h.live.udp sender
    | expire now =>
      apply h.live.congr
      apply find?_foldl_fire (r := { r with timers := withoutDue r.timers now })
      intro c hc
      obtain ⟨e, he, rfl⟩ := mem_map.mp hc
      exact hspares e he
    | wakeup now =>
      apply h.live.congr
      rw [Event.apply, onWakeup_sessions]
  · cases e with
    | expire now => exact pending_onTimerfdReady hm h.pending h.live.hasSession hspares
    | wakeup now => exact arms_onWakeup.pending h.pending hspares
    | _ =>
      rw [event_timers]
      · exact h.pending
      · rintro _ ⟨⟩
      · rintro _ ⟨⟩

/-- The same for a response, which also must not turn the session into one of
another user. -/
structure SlotSpares (r : Reactor) (w : Waiting) (resp : Slot) : Prop where
  timers : ∀ x ∈ dispatchStarts r.sessions resp, w.key = x.key → w.payload = x.payload
  ends : resp.command = .clearTimers ∨ resp.command = .disconnect ∨ resp.command = .blacklist →
    resp.sessionId ≠ w.sessionId
  login : resp.command = .markAuthenticated → resp.sessionId = w.sessionId →
    ∀ info, r.sessions.sessions.find? w.sessionId = some info → resp.username = info.username

theorem SlotSpares.live_mark (h : SlotSpares r w resp) (hc : resp.command = .markAuthenticated)
    (hlive : Live r.sessions w.sessionId u) :
    Live (markAuthenticated r.sessions resp.sessionId resp.clientType resp.username) w.sessionId u := by
  refine hlive.mark fun he => ?_
  obtain ⟨info, hinfo, helig⟩ := hlive
  rw [h.login hc he info hinfo]
  exact helig.2.2

theorem SentOut.cancel (h : SentOut r id client w) (hc : resp.command = .cancelAckTimer) :
    Pending (cancelAckTimer r.timers resp.sessionId resp.timerKey) w ∨
      ∃ x, cancelled r resp = some x ∧ Carries id x.data ∧ x.info.username = safeStrcpy credentialsSize client := by
  by_cases hk : w.key = ⟨.ack, resp.sessionId, resp.timerKey⟩
  · right
    obtain ⟨e, he, retryCount, maxRetries, hcallback⟩ := h.pending
    obtain ⟨info, hinfo, helig⟩ := h.live
    have hsession : w.sessionId = resp.sessionId := congrArg TimerKey.session hk
    rw [hk] at he
    rw [hsession] at hinfo
    refine ⟨⟨info, w.payload⟩, ?_, h.order, helig.2.2⟩
    rw [cancelled, if_pos hc, getSessionInfo, hinfo, Option.bind_some, he, Option.bind_some, hcallback]
  · left
    apply h.pending.of_find?_eq
    exact (find?_cancelTimer _ _).trans (if_neg hk)

theorem SlotSpares.live (h : SlotSpares r w resp) (hlive : Live r.sessions w.sessionId u) :
    Live (dispatchResponse now r resp).sessions w.sessionId u := by
  rw [dispatchResponse]
  split
  · exact hlive
  cases hc : resp.command with
  | send =>
    apply hlive.congr
    simp only [dispatchSend_sessions]
  | broadcast =>
    apply hlive.congr
    simp only [dispatchBroadcast, sendBatch_sessions]
  | blacklist =>
    apply hlive.congr
    exact (find?_blacklistSession _ _ _).trans (if_neg (h.ends (.inr (.inr hc))).symm)
  | disconnect => exact hlive.congr (find?_handleKeepaliveTimeout (h.ends (.inr (.inl hc))))
  | markAuthenticated => exact h.live_mark hc hlive
  | _ => exact hlive

theorem SlotSpares.pending (h : SlotSpares r w resp) (hp : Pending r.timers w)
    (hcancel : resp.command ≠ .cancelAckTimer) : Pending (dispatchResponse now r resp).timers w := by
  have hstarts := h.timers
  rw [dispatchResponse]
  split
  · exact hp
  cases hc : resp.command with
  | cancelAckTimer => exact absurd hc hcancel
  | send => exact (arms_dispatchSend resp hc).pending hp hstarts
  | startAckTimer =>
    rw [dispatchStarts, hc] at hstarts
    exact (arms_startAckTimer ⟨resp.sessionId, resp.timerKey, resp.payload⟩ _ _ _).pending hp hstarts
  | broadcast =>
    rw [dispatchStarts, hc] at hstarts
    exact (arms_sendBatch r.sessions rfl _).pending hp hstarts
  | clearTimers => exact hp.clear (h.ends (.inl hc))
  | disconnect =>
    rw [handleKeepaliveTimeout_timers]
    exact hp.clear (h.ends (.inr (.inl hc)))
  | startKeepaliveTimer => exact hp.of_find?_eq ((find?_startKeepaliveTimer _ _ _ _).trans (if_neg (by rintro ⟨⟩)))
  | resetKeepaliveTimer => exact hp.of_find?_eq (find?_resetKeepaliveTimer _ _ rfl)
  | blacklist | markAuthenticated | mqttPublishRoute => exact hp

theorem SentOut.dispatch (h : SentOut r id client w) (hspares : SlotSpares r w resp) :
    SentOut (dispatchResponse now r resp) id client w ∨
      ∃ x, cancelled r resp = some x ∧ Carries id x.data ∧ x.info.username = safeStrcpy credentialsSize client := by
  have hkeep (hp : Pending (dispatchResponse now r resp).timers w) :
      SentOut (dispatchResponse now r resp) id client w :=
    h.keep (does_dispatch resp).sent (hspares.live h.live) hp
  by_cases hc : resp.command = .cancelAckTimer
  · rcases h.cancel hc with hp | hx
    · left
      apply hkeep
      rw [dispatchResponse]
      split
      · exact h.pending
      · rw [hc]
        exact hp
    · exact .inr hx
  · exact .inl (hkeep (hspares.pending h.pending hc))

theorem IsSlot.fields (h : IsSlot cfg id client resp) : resp.command = .send ∧ resp.sessionId = "" ∧
    resp.targetUsername = safeStrcpy credentialsSize client ∧ Carries id resp.payload := by
  obtain ⟨msg, horder, rfl⟩ := h
  exact ⟨rfl, rfl, rfl, horder, rfl⟩

theorem IsSlot.needAck (h : IsSlot cfg id client resp) (hack : 0 < cfg.ackTimeout) : needAck resp = true := by
  obtain ⟨msg, -, rfl⟩ := h
  exact decide_eq_true ⟨rfl, hack⟩

theorem IsSlot.dispatch (h : IsSlot cfg id client resp) (hs : Sound r.sessions) (hack : 0 < cfg.ackTimeout)
    (hfound : (findSessionByUsername r.sessions (safeStrcpy credentialsSize client)).isSome) :
    ∃ w, SentOut (dispatchResponse now r resp) id client w := by
  obtain ⟨hc, hsession, htarget, horder⟩ := h.fields
  obtain ⟨s, hlookup⟩ := Option.isSome_iff_exists.mp hfound
  obtain ⟨entry, info, hentry, -, hinfo, helig⟩ := hs.findSessionByUsername_eq_some.mp hlookup
  have hto : sendTarget r.sessions resp = some s := by
    rw [sendTarget, if_pos ⟨hsession, htarget ▸ (hs.points _ entry hentry).1⟩, htarget]
    exact hlookup
  rw [dispatchResponse, if_neg fun hd => hd.1 hsession, hc]
  simp only [dispatchSend, hto, h.needAck hack, if_true]
  refine ⟨⟨s, resp.timerKey, resp.payload⟩, horder, ⟨⟨info, resp.payload⟩, ?_, ?_, rfl⟩, ?_, pending_restart_self⟩
  · simp only [Server.startAckTimer, sendToSession, getSessionInfo, hinfo]
    exact mem_append_right _ (mem_singleton_self _)
  · exact (Table.find?_eq_some.mp hinfo).2
  · refine ⟨info, ?_, helig⟩
    rw [Server.startAckTimer, sendToSession_sessions]
    exact hinfo

end Logistics.StrandedOrders
