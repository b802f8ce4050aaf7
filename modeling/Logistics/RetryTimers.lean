import Logistics.ServerEffects

namespace Logistics.RetryTimers

open TimerManager Worker Server KeyedTable JsonManager SessionManager List

structure Waiting where
  sessionId : String
  timerKey : String
  payload : Frame

def Waiting.key (w : Waiting) : TimerKey := ⟨.ack, w.sessionId, w.timerKey⟩

variable {cfg : Config} {now : Nat} {t t' : Timers} {w x : Waiting} {W : Set Waiting} {L : List Waiting}

def Resends (w : Waiting) (c : Callback) : Prop :=
  ∃ retryCount maxRetries, c = .ackTimeout w.sessionId w.timerKey w.payload retryCount maxRetries

def Pending (t : Timers) (w : Waiting) : Prop := ∃ e, t.entries.find? w.key = some e ∧ Resends w e.callback

theorem Resends.payload_eq {c : Callback} (hw : Resends w c) (hx : Resends x c) : w.payload = x.payload := by
  obtain ⟨_, _, hw⟩ := hw
  obtain ⟨_, _, hx⟩ := hx
  exact (Callback.ackTimeout.inj (hw.symm.trans hx)).2.2.1

theorem Waiting.key_inj : w.key = x.key ↔ w.sessionId = x.sessionId ∧ w.timerKey = x.timerKey := by
  simp [Waiting.key]

theorem Waiting.eq_of_key_eq (h : w.key = x.key) (hp : w.payload = x.payload) : w = x := by
  obtain ⟨hs, hk⟩ := key_inj.mp h
  cases w
  simp_all

theorem Pending.payload_eq (hw : Pending t w) (hx : Pending t x) (h : w.key = x.key) : w.payload = x.payload := by
  obtain ⟨e, he, hc⟩ := hw
  obtain ⟨e', he', hc'⟩ := hx
  rw [h, he'] at he
  cases he
  exact hc.payload_eq hc'

theorem Pending.of_find?_eq (h : t'.entries.find? w.key = t.entries.find? w.key) (hw : Pending t w) : Pending t' w := by
  obtain ⟨e, he, hc⟩ := hw
  exact ⟨e, h.trans he, hc⟩

theorem Pending.clear (hw : Pending t w) {sessionId : String} (hne : sessionId ≠ w.sessionId) :
    Pending (TimerManager.clearSessionTimers t sessionId) w := by
  apply hw.of_find?_eq
  rw [find?_clearSessionTimers]
  exact if_neg hne.symm

def restart (now : Nat) (t : Timers) (w : Waiting) (timeout retryCount maxRetries : Nat) : Timers :=
  TimerManager.startAckTimer t now w.sessionId w.timerKey timeout
    (.ackTimeout w.sessionId w.timerKey w.payload retryCount maxRetries)

variable {retryCount maxRetries timeout : Nat}

theorem find?_restart {k : TimerKey} (h : k ≠ x.key) :
    (restart now t x timeout retryCount maxRetries).entries.find? k = t.entries.find? k :=
  (find?_insertTimer _ _ _ _ _).trans (if_neg h)

theorem pending_restart_self : Pending (restart now t x timeout retryCount maxRetries) x :=
  ⟨_, (find?_insertTimer _ _ _ _ _).trans (if_pos rfl), _, _, rfl⟩

inductive Arms (now : Nat) : Timers → List Waiting → Timers → Prop
  | nil (t : Timers) : Arms now t [] t
  | cons {t t' : Timers} (w : Waiting) (timeout retryCount maxRetries : Nat) {L : List Waiting}
      (h : Arms now (restart now t w timeout retryCount maxRetries) L t') : Arms now t (w :: L) t'

theorem Arms.append {t'' : Timers} {K : List Waiting} (h : Arms now t L t') (h' : Arms now t' K t'') :
    Arms now t (L ++ K) t'' := by
  induction h with
  | nil t => exact h'
  | cons w timeout retryCount maxRetries _ ih => exact .cons w timeout retryCount maxRetries (ih h')

def Free (W : Set Waiting) (x : Waiting) : Prop := ∀ w ∈ W, w.key = x.key → w.payload = x.payload

theorem Free.pending_restart (h : Free W x) (hW : ∀ w ∈ W, Pending t w) :
    ∀ w ∈ insert x W, Pending (restart now t x timeout retryCount maxRetries) w := by
  intro w hw
  rcases Set.mem_insert_iff.mp hw with rfl | hw
  · exact pending_restart_self
  · by_cases hk : w.key = x.key
    · rw [Waiting.eq_of_key_eq hk (h w hw hk)]
      exact pending_restart_self
    · exact .of_find?_eq (find?_restart hk) (hW w hw)

theorem Arms.pending (h : Arms now t L t') (hw : Pending t w)
    (hfree : ∀ x ∈ L, w.key = x.key → w.payload = x.payload) : Pending t' w := by
  induction h with
  | nil t => exact hw
  | @cons t t' y timeout retryCount maxRetries L h ih =>
    have hy : Free {w} y := by
      rintro x rfl
      exact hfree y mem_cons_self
    have hall : ∀ x ∈ ({w} : Set Waiting), Pending t x := by
      rintro x rfl
      exact hw
    apply ih
    · exact hy.pending_restart hall w (Set.mem_insert_of_mem y (Set.mem_singleton w))
    · exact fun x hx => hfree x (mem_cons_of_mem y hx)

theorem Arms.pending_iff (h : Arms now t L t') (hW : ∀ w ∈ W, Pending t w) :
    (∀ w ∈ W ∪ {x | x ∈ L}, Pending t' w) ↔ ∀ x ∈ L, Free (W ∪ {x | x ∈ L}) x := by
  constructor
  · intro hp x hx w hw hk
    exact (hp w hw).payload_eq (hp x (.inr hx)) hk
  · intro hfree
    induction h generalizing W with
    | nil t => simpa using hW
    | @cons t t' y timeout retryCount maxRetries L h ih =>
      have he : W ∪ {x | x ∈ y :: L} = insert y W ∪ {x | x ∈ L} := by
        ext z
        simp only [Set.mem_union, Set.mem_ofPred_eq, mem_cons, Set.mem_insert_iff]
        tauto
      rw [he] at hfree ⊢
      have hy : Free W y := fun w hw => hfree y mem_cons_self w (.inl (.inr hw))
      exact ih (hy.pending_restart hW) fun x hx => hfree x (mem_cons_of_mem y hx)

open JsonManager SessionManager

structure State where
  reactor : Reactor
  awaiting : Set Waiting

def ended (W : Set Waiting) (sessionId : String) : Set Waiting := {w | w ∈ W ∧ w.sessionId ≠ sessionId}

/-- A message waits no more when its retries are exhausted or its session is gone,
and then none of the session does. -/
def State.fire (cfg : Config) (now : Nat) (st : State) (c : Callback) : State where
  reactor := Server.fire cfg now st.reactor c
  awaiting :=
    match c with
    | .ackTimeout sessionId timerKey payload retryCount maxRetries =>
      if hasSession st.reactor.sessions sessionId ∧ retryCount < lastRetry maxRetries then
        insert ⟨sessionId, timerKey, payload⟩ st.awaiting
      else ended st.awaiting sessionId
    | .keepaliveTimeout sessionId => ended st.awaiting sessionId

def batchStarts (m : Sessions) (batch : Batch) : List Waiting :=
  if needAck batch.resp then
    (batch.targets.filter fun target => hasSession m target ∧ getClientType m target ≠ cli).map fun target =>
      ⟨target, batch.resp.timerKey, batch.resp.payload⟩
  else []

def dispatchStarts (m : Sessions) (resp : Slot) : List Waiting :=
  match resp.command with
  | .send =>
    if needAck resp then (sendTarget m resp).toList.map fun target => ⟨target, resp.timerKey, resp.payload⟩ else []
  | .startAckTimer => [⟨resp.sessionId, resp.timerKey, resp.payload⟩]
  | .broadcast => batchStarts m ⟨(getAuthenticatedSessions m).take broadcastBatchSize, resp⟩
  | _ => []

/-- An event of the reactor, a worker that takes a request, or a response. What an acknowledgment cancels is the
timer of one message that the client got, which the slot names by its timestamp
only. -/
inductive Step
  | event (e : Event)
  | take
  | dispatch (now : Nat) (resp : Slot) (acknowledged : Frame)

def Step.apply (cfg : Config) (st : State) : Step → State
  | .event (.expire now) =>
    ((dueEntries st.reactor.timers now).map TimerEntry.callback).foldl (State.fire cfg now)
      ⟨{ st.reactor with timers := withoutDue st.reactor.timers now }, st.awaiting⟩
  | .event e =>
    ⟨e.apply cfg st.reactor,
      match e with
      | .hangup sessionId =>
        if (getSessionInfo st.reactor.sessions sessionId).any fun info => info.type = .tcp then
          ended st.awaiting sessionId
        else st.awaiting
      | .wakeup _ => st.awaiting ∪ {w | w ∈ st.reactor.posted.flatMap (batchStarts st.reactor.sessions)}
      | _ => st.awaiting⟩
  | .take => ⟨takeRequest st.reactor, st.awaiting⟩
  | .dispatch now resp acknowledged =>
    ⟨dispatchResponse now st.reactor resp,
      if Discarded st.reactor.sessions resp then st.awaiting
      else
        match resp.command with
        | .cancelAckTimer => {w | w ∈ st.awaiting ∧ w ≠ ⟨resp.sessionId, resp.timerKey, acknowledged⟩}
        | .clearTimers => ended st.awaiting resp.sessionId
        | .disconnect => ended st.awaiting resp.sessionId
        | _ => st.awaiting ∪ {w | w ∈ dispatchStarts st.reactor.sessions resp}⟩

def run (cfg : Config) (steps : List Step) : State := steps.foldl (Step.apply cfg) ⟨Server.start, ∅⟩

/-- Each waiting message has its own retry timer. -/
def Kept (st : State) : Prop := ∀ w ∈ st.awaiting, Pending st.reactor.timers w

/-- A timer is started or cancelled for a message only when no other message of
its session waits with the same timestamp. -/
def Step.Distinct (st : State) : Step → Prop
  | .event (.wakeup _) =>
    let starts := st.reactor.posted.flatMap (batchStarts st.reactor.sessions)
    ∀ x ∈ starts, Free (st.awaiting ∪ {w | w ∈ starts}) x
  | .event _ => True
  | .take => True
  | .dispatch _ resp acknowledged =>
    Discarded st.reactor.sessions resp ∨
      (if resp.command = .cancelAckTimer then Free st.awaiting ⟨resp.sessionId, resp.timerKey, acknowledged⟩
      else
        let starts := dispatchStarts st.reactor.sessions resp
        ∀ x ∈ starts, Free (st.awaiting ∪ {w | w ∈ starts}) x)

theorem foldl_fire_reactor (callbacks : List Callback) (st : State) :
    (callbacks.foldl (State.fire cfg now) st).reactor = callbacks.foldl (Server.fire cfg now) st.reactor := by
  induction callbacks generalizing st with
  | nil => rfl
  | cons c callbacks ih => exact ih (st.fire cfg now c)

theorem Step.apply_event_reactor (st : State) (e : Event) :
    (Step.apply cfg st (.event e)).reactor = e.apply cfg st.reactor := by
  cases e with
  | expire now => exact foldl_fire_reactor _ _
  | _ => rfl

def Matches (k : TimerKey) (c : Callback) : Prop :=
  match k.type with
  | .ack => ∃ payload, Resends ⟨k.session, k.timestamp, payload⟩ c
  | .keepalive => c = .keepaliveTimeout k.session

def Matched (t : Timers) : Prop := ∀ k e, t.entries.find? k = some e → Matches k e.callback

theorem matched_start : Matched TimerManager.start := by
  intro k e he
  cases he

theorem Matched.of_subset (h : Matched t) (hsub : ∀ k e, t'.entries.find? k = some e → t.entries.find? k = some e) :
    Matched t' := fun k e he => h k e (hsub k e he)

theorem Matched.insert (h : Matched t) {key : TimerKey} {timeout : Nat} {c : Callback} (hc : Matches key c) :
    Matched (insertTimer t now key timeout c) := by
  intro k e he
  rw [find?_insertTimer] at he
  split at he
  · next hk =>
    cases he
    rw [hk]
    exact hc
  · exact h k e he

variable {r : Reactor} {st : State}

theorem arms_startAckTimer (x : Waiting) (timeout retryCount maxRetries : Nat) : Arms now r.timers [x]
    (Server.startAckTimer now r x.sessionId x.timerKey timeout x.payload retryCount maxRetries).timers :=
  .cons x timeout retryCount maxRetries (.nil _)

theorem arms_broadcastTo (m : Sessions) (hm : r.sessions = m) (resp : Slot) (target : String) :
    Arms now r.timers (batchStarts m ⟨[target], resp⟩) (broadcastTo now resp r target).timers := by
  subst hm
  rw [batchStarts, broadcastTo]
  by_cases hs : hasSession r.sessions target = true
  · rw [if_pos hs]
    by_cases hack : needAck resp = true
    · by_cases hcli : getClientType r.sessions target = cli
      · simpa [hs, hack, hcli] using Arms.nil r.timers
      · simpa [hs, hack, hcli] using arms_startAckTimer (r := sendToSession r target resp.payload)
          ⟨target, resp.timerKey, resp.payload⟩ resp.timerTimeout resp.retryCount resp.maxRetries
    · simpa [hack] using Arms.nil r.timers
  · simpa [hs] using Arms.nil r.timers

theorem batchStarts_cons (m : Sessions) (resp : Slot) (target : String) (targets : List String) :
    batchStarts m ⟨target :: targets, resp⟩ = batchStarts m ⟨[target], resp⟩ ++ batchStarts m ⟨targets, resp⟩ := by
  simp only [batchStarts]
  split
  · rw [← map_append, ← filter_append]
    rfl
  · rfl

theorem arms_sendBatch (m : Sessions) (hm : r.sessions = m) (batch : Batch) :
    Arms now r.timers (batchStarts m batch) (sendBatch now r batch).timers := by
  obtain ⟨targets, resp⟩ := batch
  induction targets generalizing r with
  | nil =>
    have he : batchStarts m ⟨[], resp⟩ = [] := by simp [batchStarts]
    rw [he]
    exact .nil r.timers
  | cons target targets ih =>
    rw [batchStarts_cons]
    exact (arms_broadcastTo m hm resp target).append (ih ((broadcastTo_sessions resp target).trans hm))

theorem arms_sendBatches (m : Sessions) (hm : r.sessions = m) (batches : List Batch) :
    Arms now r.timers (batches.flatMap (batchStarts m)) (batches.foldl (sendBatch now) r).timers := by
  induction batches generalizing r with
  | nil => exact .nil r.timers
  | cons batch batches ih => exact (arms_sendBatch m hm batch).append (ih ((sendBatch_sessions batch).trans hm))

theorem arms_onWakeup : Arms now r.timers (r.posted.flatMap (batchStarts r.sessions)) (onWakeup now r).timers :=
  arms_sendBatches (r := { r with posted := [] }) r.sessions rfl r.posted

theorem arms_dispatchSend (resp : Slot) (hc : resp.command = .send) :
    Arms now r.timers (dispatchStarts r.sessions resp) (dispatchSend now r resp).timers := by
  rw [dispatchStarts, hc, dispatchSend]
  cases sendTarget r.sessions resp with
  | none => simpa using Arms.nil r.timers
  | some target =>
    by_cases hack : needAck resp = true
    · simpa [hack] using arms_startAckTimer (r := sendToSession r target resp.payload)
        ⟨target, resp.timerKey, resp.payload⟩ resp.timerTimeout resp.retryCount resp.maxRetries
    · simpa [hack] using Arms.nil r.timers

theorem Matches.resends {k : TimerKey} {c : Callback} (h : Matches k c) (hk : k.type = .ack) :
    ∃ x : Waiting, x.key = k ∧ Resends x c := by
  obtain ⟨type, session, timestamp⟩ := k
  cases hk
  obtain ⟨payload, hp⟩ := h
  exact ⟨⟨session, timestamp, payload⟩, rfl, hp⟩

theorem fire_ackTimeout_timers (x : Waiting) (retryCount maxRetries : Nat) :
    (Server.fire cfg now r (.ackTimeout x.sessionId x.timerKey x.payload retryCount maxRetries)).timers =
      if hasSession r.sessions x.sessionId = true then
        if retryCount < lastRetry maxRetries then
          restart now r.timers x cfg.ackTimeout (retryCount + 1) maxRetries
        else TimerManager.clearSessionTimers r.timers x.sessionId else r.timers := by
  rw [Server.fire, handleAckTimeout, hasSession, getSessionInfo]
  cases r.sessions.sessions.find? x.sessionId with
  | none => rfl
  | some info =>
    by_cases hn : retryCount < lastRetry maxRetries
    · simp [hn, hn.not_ge, Server.startAckTimer, restart]
    · simp only [Option.isSome_some, if_true, hn, if_false, Nat.not_lt.mp hn]
      split <;> exact notifyDisconnect_timers _

structure Firing (st : State) (due : List TimerEntry) : Prop where
  nodup : (due.map TimerEntry.key).Nodup
  out : ∀ e ∈ due, st.reactor.timers.entries.find? e.key = none
  matched : ∀ e ∈ due, Matches e.key e.callback
  covered : ∀ w ∈ st.awaiting, Pending st.reactor.timers w ∨ ∃ e ∈ due, e.key = w.key ∧ Resends w e.callback

variable {e : TimerEntry} {due : List TimerEntry}

theorem Firing.end_session (h : Firing st (e :: due)) (r' : Reactor) (hr : r'.timers = st.reactor.timers ∨
      r'.timers = TimerManager.clearSessionTimers st.reactor.timers e.key.session) :
    Firing ⟨r', ended st.awaiting e.key.session⟩ due := by
  have hfind : ∀ k, r'.timers.entries.find? k = st.reactor.timers.entries.find? k ∨
      k.session = e.key.session ∧ r'.timers.entries.find? k = none := by
    intro k
    rcases hr with hr | hr <;> rw [hr]
    · exact .inl rfl
    · rw [find?_clearSessionTimers]
      by_cases hk : k.session = e.key.session
      · exact .inr ⟨hk, if_pos hk⟩
      · exact .inl (if_neg hk)
  constructor
  · exact (nodup_cons.mp h.nodup).2
  · intro d hd
    rcases hfind d.key with hk | hk
    · exact hk.trans (h.out d (mem_cons_of_mem e hd))
    · exact hk.2
  · exact fun d hd => h.matched d (mem_cons_of_mem e hd)
  · rintro w ⟨hw, hs⟩
    rcases h.covered w hw with hp | ⟨d, hd, hk, hc⟩
    · rcases hfind w.key with hk | hk
      · exact .inl (.of_find?_eq hk hp)
      · exact absurd hk.1 hs
    · rcases mem_cons.mp hd with rfl | hd
      · exact absurd (congrArg TimerKey.session hk).symm hs
      · exact .inr ⟨d, hd, hk, hc⟩

theorem Firing.resend (h : Firing st (e :: due)) (hx : x.key = e.key) (hc : Resends x e.callback) (r' : Reactor)
    {timeout retryCount maxRetries : Nat}
    (hr : r'.timers = restart now st.reactor.timers x timeout retryCount maxRetries) :
    Firing ⟨r', insert x st.awaiting⟩ due := by
  have hhead : e.key ∉ due.map TimerEntry.key := (nodup_cons.mp h.nodup).1
  constructor
  · exact (nodup_cons.mp h.nodup).2
  · intro d hd
    have hne : d.key ≠ x.key := by
      rintro he
      exact hhead (hx ▸ he ▸ mem_map_of_mem hd)
    exact (congrArg (fun t => t.entries.find? d.key) hr).trans
      ((find?_restart hne).trans (h.out d (mem_cons_of_mem e hd)))
  · exact fun d hd => h.matched d (mem_cons_of_mem e hd)
  · intro w hw
    rw [hr]
    rcases Set.mem_insert_iff.mp hw with rfl | hw
    · exact .inl pending_restart_self
    by_cases hk : w.key = x.key
    · rcases h.covered w hw with ⟨d, hd, -⟩ | ⟨d, hd, hdk, hdc⟩
      · rw [hk, hx, h.out e mem_cons_self] at hd
        cases hd
      · rcases mem_cons.mp hd with rfl | hd
        · rw [Waiting.eq_of_key_eq hk (hdc.payload_eq hc)]
          exact .inl pending_restart_self
        · exact absurd (mem_map_of_mem hd) (hdk.trans (hk.trans hx) ▸ hhead)
    · rcases h.covered w hw with hp | ⟨d, hd, hdk, hdc⟩
      · exact .inl (.of_find?_eq (find?_restart hk) hp)
      · rcases mem_cons.mp hd with rfl | hd
        · exact absurd (hdk.symm.trans hx.symm) hk
        · exact .inr ⟨d, hd, hdk, hdc⟩

theorem Firing.fire (h : Firing st (e :: due)) : Firing (st.fire cfg now e.callback) due := by
  have hm := h.matched e mem_cons_self
  cases htype : e.key.type with
  | keepalive =>
    have hc : e.callback = .keepaliveTimeout e.key.session := by
      rw [Matches, htype] at hm
      exact hm
    rw [hc]
    exact h.end_session _ (.inr (handleKeepaliveTimeout_timers _))
  | ack =>
    obtain ⟨x, hx, hc⟩ := hm.resends htype
    obtain ⟨retryCount, maxRetries, he⟩ := hc
    have hs : x.sessionId = e.key.session := congrArg TimerKey.session hx
    have ht : (Server.fire cfg now st.reactor (.ackTimeout _ _ _ _ _)).timers = _ :=
      fire_ackTimeout_timers x retryCount maxRetries
    rw [he, State.fire]
    by_cases hgo : hasSession st.reactor.sessions x.sessionId = true ∧ retryCount < lastRetry maxRetries
    · simp only [hgo, and_self, if_true] at ht ⊢
      exact h.resend hx ⟨retryCount, maxRetries, he⟩ _ ht
    · simp only [if_neg hgo]
      rw [hs]
      apply h.end_session
      rw [← hs]
      by_cases hsess : hasSession st.reactor.sessions x.sessionId = true
      · rw [if_pos hsess, if_neg fun hn => hgo ⟨hsess, hn⟩] at ht
        exact .inr ht
      · rw [if_neg hsess] at ht
        exact .inl ht

theorem Firing.foldl (h : Firing st due) : Kept ((due.map TimerEntry.callback).foldl (State.fire cfg now) st) := by
  induction due generalizing st with
  | nil =>
    intro w hw
    rcases h.covered w hw with hp | ⟨_, hd, -⟩
    · exact hp
    · cases hd
  | cons e due ih => exact ih h.fire

theorem Firing.start (hm : Matched r.timers) (h : Kept ⟨r, W⟩) (now : Nat) :
    Firing ⟨{ r with timers := withoutDue r.timers now }, W⟩ (dueEntries r.timers now) := by
  constructor
  · exact nodup_dueEntries r.timers now
  · intro e he
    refine Option.eq_none_iff_forall_ne_some.mpr fun d hd => ?_
    obtain ⟨hd, hlate⟩ := find?_withoutDue.mp hd
    rw [find?_of_mem_dueEntries he] at hd
    cases hd
    exact absurd (mem_dueEntries.mp he).2 (Nat.not_le.mpr hlate)
  · intro e he
    exact hm e.key e (find?_of_mem_dueEntries he)
  · intro w hw
    obtain ⟨e, he, hc⟩ := h w hw
    obtain ⟨hmem, hk⟩ := Table.find?_eq_some.mp he
    by_cases hdue : e.deadline ≤ now
    · exact .inr ⟨e, mem_dueEntries.mpr ⟨hmem, hdue⟩, hk, hc⟩
    · exact .inl ⟨e, find?_withoutDue.mpr ⟨he, Nat.not_le.mp hdue⟩, hc⟩

theorem Matched.withoutDue (h : Matched t) (now : Nat) : Matched (withoutDue t now) := by
  apply h.of_subset
  exact fun k e he => (find?_withoutDue.mp he).1

theorem Matched.of_does {A : Reactor → Op → Prop} {P : Sessions → Act → Prop} {r' : Reactor} (h : Matched r.timers)
    (hd : Does A P r r') : Matched r'.timers := by
  induction hd with
  | refl | post | wake | table => exact h
  | drop ht => exact h.of_subset ht
  | send => rwa [sendToSession_timers]
  | timed =>
    refine Matched.insert ?_ ⟨_, _, _, rfl⟩
    rwa [sendToSession_timers]
  | start => exact h.insert ⟨_, _, _, rfl⟩
  | keepalive => exact h.insert rfl
  | request => rwa [pushRequest_timers]
  | ended => rwa [notifyDisconnect_timers]
  | trans _ _ ih ih' => exact ih' (ih h)

theorem Matched.fire (h : Matched r.timers) (c : Callback) : Matched (Server.fire cfg now r c).timers :=
  h.of_does (does_fire (A := fun _ _ => False) (P := fun _ _ => True) fun _ _ => trivial)

theorem Matched.dispatch (h : Matched r.timers) (resp : Slot) : Matched (dispatchResponse now r resp).timers :=
  h.of_does (does_dispatch resp)

theorem Matched.event (h : Matched r.timers) (e : Event) : Matched (e.apply cfg r).timers := h.of_does (does_event e)

theorem event_timers (e : Event) (hx : ∀ now, e ≠ .expire now) (hw : ∀ now, e ≠ .wakeup now) :
    (e.apply cfg r).timers = r.timers := by
  cases e with
  | accept => rfl
  | frame sessionId rawJson =>
    simp only [Event.apply, onFrame]
    split
    · rfl
    · split
      · exact pushRequest_timers _
      · rfl
  | hangup sessionId =>
    simp only [Event.apply, onHangup]
    split
    · rfl
    · split
      · exact notifyDisconnect_timers _
      · rfl
  | datagram sender rawJson payloadLen => exact pushRequest_timers _
  | expire now => exact absurd rfl (hx now)
  | wakeup now => exact absurd rfl (hw now)

end Logistics.RetryTimers
