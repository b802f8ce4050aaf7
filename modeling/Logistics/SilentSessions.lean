import Logistics.ServerEffects

namespace Logistics.SilentSessions

open KeyedTable Ipc SessionManager TimerManager Worker Server List

def framesTo (s : String) (r : Reactor) : List Sent := r.sent.filter fun f => f.info.sessionId = s

def timersOf (s : String) (r : Reactor) : List TimerEntry := r.timers.entries.rows.filter fun e => e.key.session = s

def told (s : String) (r : Reactor) : Nat := r.requests.countP fun req => req.isDisconnect ∧ req.sessionId = s

def Terminated (m : Sessions) (s : String) : Prop := ∀ info, m.sessions.find? s = some info → info.isBlacklisted = true

/-- No function of the reactor tells the workers of the end of such a session: a
TCP session is told of when it is removed, a UDP session when it is blacklisted or
removed. -/
def Gone (m : Sessions) (s : String) : Prop :=
  ∀ info, m.sessions.find? s = some info → info.type = .udp ∧ info.isBlacklisted = true

def Continues (m m' : Sessions) (s : String) : Prop :=
  ∀ info', m'.sessions.find? s = some info' → ∃ info, m.sessions.find? s = some info ∧ info'.type = info.type ∧
    (info.isBlacklisted = true → info'.isBlacklisted = true)

variable {m m' : Sessions} {r r' : Reactor} {s v : String} {info : SessionInfo} {now : Nat}

inductive Affects (s : String) : Reactor → Reactor → Prop
  | leaves {r r' : Reactor} (hframes : framesTo s r' = framesTo s r) (htimers : timersOf s r' ⊆ timersOf s r)
      (htable : Continues r.sessions r'.sessions s) (htold : told s r' = told s r) : Affects s r r'
  | serves {r r' : Reactor} {info : SessionInfo} (hinfo : r.sessions.sessions.find? s = some info)
      (hopen : info.isBlacklisted = false) (htable : r'.sessions = r.sessions) (htold : told s r' = told s r) :
      Affects s r r'
  | ends {r r' : Reactor} {info : SessionInfo} (hinfo : r.sessions.sessions.find? s = some info)
      (hopen : info.type = .udp → info.isBlacklisted = false) (hgone : Gone r'.sessions s)
      (hframes : framesTo s r' = framesTo s r) (htimers : timersOf s r' ⊆ timersOf s r)
      (htold : told s r' ≤ told s r + 1) : Affects s r r'
  | trans {r r' r'' : Reactor} (h : Affects s r r') (h' : Affects s r' r'') : Affects s r r''

theorem Continues.refl (m : Sessions) (s : String) : Continues m m s := fun info h => ⟨info, h, rfl, id⟩

theorem continues_of_map {f : SessionInfo → SessionInfo}
    (h : m'.sessions.find? s = if s = v then (m.sessions.find? s).map f else m.sessions.find? s)
    (hf : ∀ info, (f info).type = info.type ∧ (info.isBlacklisted = true → (f info).isBlacklisted = true)) :
    Continues m m' s := by
  intro info' hinfo'
  rw [h] at hinfo'
  split at hinfo'
  · obtain ⟨info, hinfo, rfl⟩ := Option.map_eq_some_iff.mp hinfo'
    exact ⟨info, hinfo, hf info⟩
  · exact ⟨info', hinfo', rfl, id⟩

theorem continues_blacklistSession (m : Sessions) (v s : String) :
    Continues m (SessionManager.blacklistSession m v) s :=
  continues_of_map (find?_blacklistSession m v s) fun _ => ⟨rfl, fun _ => rfl⟩

theorem continues_markAuthenticated (m : Sessions) (v clientType username s : String) :
    Continues m (markAuthenticated m v clientType username) s :=
  continues_of_map (find?_markAuthenticated m v clientType username s) fun _ => ⟨rfl, id⟩

theorem continues_of_kept (hkept : hasSession m s = false → hasSession m' s = false)
    (h : ∀ info info', m.sessions.find? s = some info → m'.sessions.find? s = some info' →
      info'.type = info.type ∧ (info.isBlacklisted = true → info'.isBlacklisted = true)) : Continues m m' s := by
  intro info' hinfo'
  cases hinfo : m.sessions.find? s with
  | none =>
    have hgone : hasSession m' s = false := hkept (by rw [hasSession, hinfo]; rfl)
    rw [hasSession, hinfo'] at hgone
    cases hgone
  | some info => exact ⟨info, rfl, h info info' hinfo hinfo'⟩

theorem Affects.refl (s : String) (r : Reactor) : Affects s r r := .leaves rfl (Subset.refl _) (.refl _ _) rfl

theorem Terminated.continues (h : Terminated m s) (hc : Continues m m' s) : Terminated m' s := by
  intro info' hinfo'
  obtain ⟨info, hinfo, -, hblack⟩ := hc info' hinfo'
  exact hblack (h info hinfo)

theorem Gone.continues (h : Gone m s) (hc : Continues m m' s) : Gone m' s := by
  intro info' hinfo'
  obtain ⟨info, hinfo, htype, hblack⟩ := hc info' hinfo'
  exact ⟨htype.trans (h info hinfo).1, hblack (h info hinfo).2⟩

theorem Affects.silent (h : Affects s r r') (ht : Terminated r.sessions s) :
    Terminated r'.sessions s ∧ framesTo s r' = framesTo s r ∧ timersOf s r' ⊆ timersOf s r := by
  induction h with
  | leaves hframes htimers htable _ => exact ⟨ht.continues htable, hframes, htimers⟩
  | serves hinfo hopen _ _ => exact absurd (hopen.symm.trans (ht _ hinfo)) Bool.false_ne_true
  | ends _ _ hgone hframes htimers _ => exact ⟨fun info hinfo => (hgone info hinfo).2, hframes, htimers⟩
  | trans _ _ ih ih' =>
    obtain ⟨ht', hframes, htimers⟩ := ih ht
    obtain ⟨ht'', hframes', htimers'⟩ := ih' ht'
    exact ⟨ht'', hframes'.trans hframes, Subset.trans htimers' htimers⟩

theorem Affects.told_le (h : Affects s r r') : told s r' = told s r ∧ (Gone r.sessions s → Gone r'.sessions s) ∨
    ¬ Gone r.sessions s ∧ Gone r'.sessions s ∧ told s r' ≤ told s r + 1 := by
  induction h with
  | leaves _ _ htable htold => exact .inl ⟨htold, fun hgone => hgone.continues htable⟩
  | serves _ _ htable htold => exact .inl ⟨htold, fun hgone => htable ▸ hgone⟩
  | ends hinfo hopen hgone _ _ htold =>
    refine .inr ⟨fun hbefore => ?_, hgone, htold⟩
    obtain ⟨htype, hblack⟩ := hbefore _ hinfo
    exact Bool.false_ne_true ((hopen htype).symm.trans hblack)
  | trans _ _ ih ih' =>
    rcases ih with ⟨heq, hkeep⟩ | ⟨hnot, hgone, hle⟩
    · rw [← heq]
      exact ih'.imp (fun h' => ⟨h'.1, h'.2 ∘ hkeep⟩) fun h' => ⟨h'.1 ∘ hkeep, h'.2⟩
    · rcases ih' with ⟨heq', hkeep'⟩ | ⟨hnot', -, -⟩
      · exact .inr ⟨hnot, hkeep' hgone, heq' ▸ hle⟩
      · exact absurd hgone hnot'

theorem timersOf_subset {t : Timers}
    (h : ∀ k e, k.session = s → t.entries.find? k = some e → r.timers.entries.find? k = some e) :
    timersOf s { r with timers := t } ⊆ timersOf s r := by
  intro e he
  obtain ⟨hrow, hs⟩ := mem_filter.mp he
  have hkey : e.key.session = s := of_decide_eq_true hs
  have hfind : t.entries.find? e.key = some e := Table.find?_eq_some.mpr ⟨hrow, rfl⟩
  exact mem_filter.mpr ⟨(Table.find?_eq_some.mp (h e.key e hkey hfind)).1, hs⟩

theorem told_pushRequest {req : RequestSlot} (h : req.isDisconnect = false) :
    told s (pushRequest r req) = told s r := by
  rcases pushRequest_cases (r := r) req with hq | hq
  · rw [told, hq, told]
  · rw [told, hq, countP_append, told]
    simp [h]

theorem affects_pushRequest (req : RequestSlot) (h : req.isDisconnect = false) : Affects s r (pushRequest r req) := by
  refine .leaves ?_ ?_ ?_ (told_pushRequest h)
  · rw [framesTo, sent_pushRequest, framesTo]
  · rw [timersOf, pushRequest_timers]
    exact Subset.refl _
  · rw [pushRequest_sessions]
    exact .refl _ _

theorem told_notifyDisconnect (info : SessionInfo) : told s (notifyDisconnect r info) = told s r ∨ info.sessionId = s ∧
    told s (notifyDisconnect r info) = told s r + 1 := by
  rcases notifyDisconnect_requests (r := r) info with hq | ⟨-, hq⟩
  · exact .inl (by rw [told, hq, told])
  · rw [told, hq, countP_append, ← told]
    by_cases hs : info.sessionId = s
    · exact .inr ⟨hs, by simp [disconnectOf, hs]⟩
    · exact .inl (by simp [disconnectOf, hs])

def Open (m : Sessions) (s : String) : Prop := ∃ info, m.sessions.find? s = some info ∧ info.isBlacklisted = false

theorem isBlacklisted_eq_false : isBlacklisted m s = false ↔
    ∀ info, m.sessions.find? s = some info → info.isBlacklisted = false := by
  rw [isBlacklisted]
  cases m.sessions.find? s with
  | none => exact iff_of_true rfl nofun
  | some info => exact ⟨fun h _ he => Option.some.inj he ▸ h, fun h => h info rfl⟩

theorem terminated_of_isBlacklisted (h : isBlacklisted m s = true) : Terminated m s := by
  intro info hinfo
  rwa [isBlacklisted, hinfo] at h

theorem open_of_hasSession (hhas : hasSession m s = true) (h : isBlacklisted m s = false) : Open m s := by
  obtain ⟨info, hinfo⟩ := Option.isSome_iff_exists.mp hhas
  exact ⟨info, hinfo, isBlacklisted_eq_false.mp h info hinfo⟩

theorem affects_sendToSession (data : Frame) (h : v = s → isBlacklisted r.sessions v = false) :
    Affects s r (sendToSession r v data) := by
  rw [sendToSession]
  split
  · exact .refl s r
  next info hinfo =>
  by_cases hv : v = s
  · exact .serves (hv ▸ hinfo) (isBlacklisted_eq_false.mp (h hv) info hinfo) rfl rfl
  · have hid : info.sessionId = v := (Table.find?_eq_some.mp hinfo).2
    refine .leaves ?_ (Subset.refl _) (.refl _ _) rfl
    rw [framesTo, filter_append, filter_cons_of_neg, filter_nil, append_nil, framesTo]
    simpa [hid] using hv

theorem affects_insertTimer {k : TimerKey} {c : Callback} {timeout : Nat}
    (h : k.session = s → Open r.sessions k.session) :
    Affects s r { r with timers := insertTimer r.timers now k timeout c } := by
  by_cases hv : k.session = s
  · obtain ⟨info, hinfo, hopen⟩ := h hv
    exact .serves (hv ▸ hinfo) hopen rfl rfl
  · refine .leaves rfl (timersOf_subset fun k' e hk' he => ?_) (.refl _ _) rfl
    rwa [find?_insertTimer, if_neg fun hk : k' = k => hv (hk ▸ hk')] at he

theorem affects_end (hinfo : r.sessions.sessions.find? v = some info)
    (hopen : v = s → info.type = .udp → info.isBlacklisted = false) (op : Op)
    (hop : op = .remove v ∨ op = .blacklist v ∧ info.type = .udp) :
    Affects s r { notifyDisconnect r info with sessions := op.apply (notifyDisconnect r info).sessions } := by
  have hid : info.sessionId = v := (Table.find?_eq_some.mp hinfo).2
  have hframes : framesTo s { notifyDisconnect r info with
      sessions := op.apply (notifyDisconnect r info).sessions } = framesTo s r := by
    rw [framesTo, sent_notifyDisconnect, framesTo]
  have htimers : timersOf s { notifyDisconnect r info with
      sessions := op.apply (notifyDisconnect r info).sessions } ⊆ timersOf s r := by
    rw [timersOf, notifyDisconnect_timers]
    exact Subset.refl _
  by_cases hv : v = s
  · refine .ends (hv ▸ hinfo) (hopen hv) ?_ hframes htimers ?_
    · intro info' hinfo'
      rw [notifyDisconnect_sessions] at hinfo'
      rcases hop with rfl | ⟨rfl, htype⟩
      · rw [Op.apply, find?_removeSession, if_pos hv.symm] at hinfo'
        cases hinfo'
      · rw [Op.apply, find?_blacklistSession, if_pos hv.symm, ← hv, hinfo] at hinfo'
        cases hinfo'
        exact ⟨htype, rfl⟩
    · rcases told_notifyDisconnect (s := s) (r := r) info with htold | ⟨-, htold⟩
      · exact htold.le.trans (Nat.le_succ _)
      · exact htold.le
  · refine .leaves hframes htimers ?_ ?_
    · intro info' hinfo'
      rw [notifyDisconnect_sessions] at hinfo'
      rcases hop with rfl | ⟨rfl, -⟩
      · rw [Op.apply, find?_removeSession, if_neg (Ne.symm hv)] at hinfo'
        exact ⟨info', hinfo', rfl, id⟩
      · rw [Op.apply, find?_blacklistSession, if_neg (Ne.symm hv)] at hinfo'
        exact ⟨info', hinfo', rfl, id⟩
    · exact (told_notifyDisconnect info).resolve_right fun h => hv (hid.symm.trans h.1)

def Admits (s : String) (m : Sessions) : Act → Prop
  | .send v _ | .timed v _ _ => v = s → isBlacklisted m v = false
  | .start v _ _ | .keepalive v => v = s → Open m v
  | .ends v => v = s → ∀ info, m.sessions.find? v = some info → info.type = .udp → info.isBlacklisted = false
  | _ => True

theorem Affects.of_does {A : Reactor → Op → Prop} {P : Sessions → Act → Prop} (h : Does A P r r')
    (hA : ∀ r op, A r op → Continues r.sessions (op.apply r.sessions) s) (hP : ∀ m act, P m act → Admits s m act) :
    Affects s r r' := by
  induction h with
  | refl r => exact .refl s r
  | drop ht => exact .leaves rfl (timersOf_subset fun k e _ => ht k e) (.refl _ _) rfl
  | send _ hact => exact affects_sendToSession _ (hP _ _ hact)
  | timed now timeout retryCount maxRetries hinfo hact =>
    refine (affects_sendToSession _ (hP _ _ hact)).trans (affects_insertTimer fun hv => ?_)
    rw [sendToSession_sessions]
    exact ⟨_, hinfo, isBlacklisted_eq_false.mp (hP _ _ hact hv) _ hinfo⟩
  | start now timeout retryCount maxRetries hact | keepalive now timeout hact => exact affects_insertTimer (hP _ _ hact)
  | post | wake => exact .leaves rfl (Subset.refl _) (.refl _ _) rfl
  | table op hop => exact .leaves rfl (Subset.refl _) (hA _ op hop) rfl
  | request => exact affects_pushRequest _ rfl
  | ended hinfo op hop hact => exact affects_end hinfo (fun hv => hP _ _ hact hv _ hinfo) op hop
  | trans _ _ ih ih' => exact ih.trans ih'

def sessionOf : Callback → String
  | .ackTimeout sessionId _ _ _ _ => sessionId
  | .keepaliveTimeout sessionId => sessionId

variable {cfg : Config} {resp : Slot} {target : String}

theorem isBlacklisted_of_mem_authenticated (h : target ∈ getAuthenticatedSessions m) :
    isBlacklisted m target = false := by
  obtain ⟨info, hmem, rfl⟩ := mem_map.mp h
  obtain ⟨hrow, hopen⟩ := mem_filter.mp hmem
  rw [isBlacklisted_eq_false, Table.find?_eq_some.mpr ⟨hrow, rfl⟩]
  rintro info' ⟨⟩
  exact (of_decide_eq_true hopen).2

def addressed : ResponseCommand → Bool
  | .send | .startAckTimer | .startKeepaliveTimer | .resetKeepaliveTimer | .disconnect => true
  | _ => false

theorem affects_fire {c : Callback} (h : sessionOf c = s → isBlacklisted r.sessions (sessionOf c) = false) :
    Affects s r (fire cfg now r c) := by
  refine .of_does (does_fire (A := fun _ _ => False) (P := fun m act => m = r.sessions ∧ CallbackActs c act)
    fun _ hact => ⟨rfl, hact⟩) (fun _ _ hop => hop.elim) ?_
  rintro _ act ⟨rfl, hact⟩
  cases hact with
  | resend => exact h
  | giveUp | silence => exact fun hv info hinfo _ => isBlacklisted_eq_false.mp (h hv) info hinfo

theorem affects_dispatchResponse (hs : s ≠ "")
    (h : addressed resp.command = true → isBlacklisted r.sessions resp.sessionId = false) :
    Affects s r (dispatchResponse now r resp) := by
  refine .of_does (does_dispatch resp) ?_ ?_
  · rintro _ _ ⟨rfl, ⟨-, rfl⟩ | ⟨-, rfl⟩⟩
    · exact continues_markAuthenticated _ _ _ _ _
    · exact continues_blacklistSession _ _ _
  rintro _ act ⟨rfl, hd, hact⟩
  have hopen (hc : addressed resp.command = true) (hv : resp.sessionId = s) : Open r.sessions resp.sessionId := by
    refine open_of_hasSession ?_ (h hc)
    by_contra hnot
    refine hd ⟨hv ▸ hs, ?_, Bool.eq_false_iff.mpr hnot⟩
    intro hmark
    rw [hmark] at hc
    cases hc
  have htarget {target : String} (hc : resp.command = .send) (ht : sendTarget r.sessions resp = some target) :
      isBlacklisted r.sessions target = false := by
    rw [sendTarget] at ht
    split at ht
    · obtain ⟨info, hinfo, -, hopen⟩ := usable_of_findSessionByUsername ht
      rw [isBlacklisted, hinfo]
      exact hopen
    · cases ht
      exact h (by rw [hc]; rfl)
  cases hact with
  | send hc ht | timed hc ht => exact fun _ => htarget hc ht
  | nobody => exact fun hv => absurd hv.symm hs
  | start hc => exact hopen (by rw [hc]; rfl)
  | keepalive hc => exact hopen (by rcases hc with hc | hc <;> rw [hc] <;> rfl)
  | ends hc => exact fun _ info hinfo _ => isBlacklisted_eq_false.mp (h (by rw [hc]; rfl)) info hinfo
  | batch _ hact =>
    obtain ⟨target, ht, rfl | ⟨-, rfl⟩⟩ := hact
    · exact fun _ => isBlacklisted_of_mem_authenticated (mem_of_mem_take ht)
    · exact fun _ => isBlacklisted_of_mem_authenticated (mem_of_mem_take ht)
  | post => trivial

theorem continues_createSession (hsound : Sound m)
    (hkept : hasSession m s = false → hasSession (createSession m).2 s = false) :
    Continues m (createSession m).2 s := by
  refine continues_of_kept hkept fun info info' hinfo hinfo' => ?_
  rw [find?_createSession, if_neg, hinfo] at hinfo'
  · cases hinfo'
    exact ⟨rfl, id⟩
  · rintro rfl
    rw [hsound.fresh _ (Nat.lt_succ_self _)] at hinfo
    cases hinfo

theorem continues_getOrCreateUdpSession {sender : Address}
    (hkept : hasSession m s = false → hasSession (getOrCreateUdpSession m sender).2 s = false) :
    Continues m (getOrCreateUdpSession m sender).2 s := by
  refine continues_of_kept hkept fun info info' hinfo hinfo' => ?_
  rw [find?_getOrCreateUdpSession, hinfo] at hinfo'
  split at hinfo' <;> cases hinfo' <;> exact ⟨rfl, id⟩

theorem affects_withoutDue (now : Nat) : Affects s r { r with timers := withoutDue r.timers now } := by
  refine .leaves rfl (timersOf_subset fun k e _ he => ?_) (.refl _ _) rfl
  exact (find?_withoutDue.mp he).1

theorem affects_event {e : Event} (hsound : Sound r.sessions) (hne : ∀ now, e ≠ .expire now)
    (hposted : ∀ now, e = .wakeup now → ∀ batch ∈ r.posted, ∀ target ∈ batch.targets, target = s →
      isBlacklisted r.sessions target = false)
    (hkept : hasSession r.sessions s = false → hasSession (e.apply cfg r).sessions s = false) :
    Affects s r (e.apply cfg r) := by
  refine .of_does (does_event e) (fun r' op hop => ?_) fun m act hact => ?_
  · cases e with
    | accept =>
      obtain ⟨rfl, rfl⟩ := hop
      exact continues_createSession hsound hkept
    | datagram sender rawJson payloadLen =>
      obtain ⟨rfl, rfl⟩ := hop
      rw [Event.apply, onDatagram, pushRequest_sessions] at hkept
      exact continues_getOrCreateUdpSession hkept
    | _ => exact hop.elim
  · cases e with
    | hangup v =>
      obtain ⟨rfl, info, hinfo, htcp⟩ := hact
      intro _ info' hinfo' hudp
      rw [hinfo] at hinfo'
      cases hinfo'
      cases htcp.symm.trans hudp
    | expire now => exact absurd rfl (hne now)
    | wakeup now =>
      obtain ⟨rfl, rfl | ⟨batch, hb, target, ht, rfl | ⟨-, rfl⟩⟩⟩ := hact
      · trivial
      · exact hposted now rfl batch hb target ht
      · exact hposted now rfl batch hb target ht
    | accept | frame | datagram => exact hact.elim

open JsonManager Reachability

structure Loop where
  reactor : Reactor
  due : List Callback

inductive Move
  | event (e : Event)
  | callback (now : Nat)
  | dispatch (now : Nat) (resp : Slot)
  | take

/-- The reactor is one thread: it turns to an event or a response when no callback
is left. -/
def Move.apply (cfg : Config) (l : Loop) : Move → Loop
  | .event (.expire now) =>
    if l.due.isEmpty then
      ⟨{ l.reactor with timers := withoutDue l.reactor.timers now },
        (dueEntries l.reactor.timers now).map TimerEntry.callback⟩
    else l
  | .event e => if l.due.isEmpty then ⟨e.apply cfg l.reactor, []⟩ else l
  | .callback now =>
    match l.due with
    | [] => l
    | c :: due => ⟨fire cfg now l.reactor c, due⟩
  | .dispatch now resp => if l.due.isEmpty then ⟨dispatchResponse now l.reactor resp, []⟩ else l
  | .take => { l with reactor := takeRequest l.reactor }

def run (cfg : Config) (moves : List Move) : Loop := moves.foldl (Move.apply cfg) ⟨Server.start, []⟩

variable {cfg : Config} {l : Loop} {s : String}

theorem foldl_callback (cfg : Config) (now : Nat) (callbacks : List Callback) (r : Reactor) :
    (replicate callbacks.length (Move.callback now)).foldl (Move.apply cfg) ⟨r, callbacks⟩ =
      ⟨callbacks.foldl (fire cfg now) r, []⟩ := by
  induction callbacks generalizing r with
  | nil => rfl
  | cons c callbacks ih => exact ih (fire cfg now r c)

/-- What the reactor does on an event is a sequence of moves. -/
theorem exists_moves (e : Event) (r : Reactor) :
    ∃ moves : List Move, moves.foldl (Move.apply cfg) ⟨r, []⟩ = ⟨e.apply cfg r, []⟩ := by
  cases e with
  | expire now =>
    exact ⟨.event (.expire now) :: _,
      foldl_callback cfg now ((dueEntries r.timers now).map TimerEntry.callback)
        { r with timers := withoutDue r.timers now }⟩
  | accept => exact ⟨[.event .accept], rfl⟩
  | frame sessionId rawJson => exact ⟨[.event (.frame sessionId rawJson)], rfl⟩
  | hangup sessionId => exact ⟨[.event (.hangup sessionId)], rfl⟩
  | datagram sender rawJson payloadLen => exact ⟨[.event (.datagram sender rawJson payloadLen)], rfl⟩
  | wakeup now => exact ⟨[.event (.wakeup now)], rfl⟩

/-- What is worked off next is not meant for a blacklisted session: the callback of
a timer, the target of a posted broadcast, or a response with a session id. -/
def Heeds (l : Loop) : Move → Prop
  | .callback _ => ∀ c ∈ l.due.head?, isBlacklisted l.reactor.sessions (sessionOf c) = false
  | .event (.wakeup _) =>
    ∀ batch ∈ l.reactor.posted, ∀ target ∈ batch.targets, isBlacklisted l.reactor.sessions target = false
  | .dispatch _ resp => addressed resp.command = true → isBlacklisted l.reactor.sessions resp.sessionId = false
  | _ => True

def Creates (cfg : Config) (s : String) (l : Loop) (move : Move) : Prop :=
  hasSession l.reactor.sessions s = false ∧ hasSession (move.apply cfg l).reactor.sessions s = true

instance (cfg : Config) (s : String) (l : Loop) (move : Move) : Decidable (Creates cfg s l move) :=
  inferInstanceAs (Decidable (_ ∧ _))

inductive Moves (cfg : Config) (l : Loop) : Move → Loop → Prop
  | blocked (move : Move) (h : ∀ now c due, move = .callback now → l.due ≠ c :: due) : Moves cfg l move l
  | expire (now : Nat) (hdue : l.due = []) : Moves cfg l (.event (.expire now))
      ⟨{ l.reactor with timers := withoutDue l.reactor.timers now },
        (dueEntries l.reactor.timers now).map TimerEntry.callback⟩
  | event {e : Event} (hdue : l.due = []) (hne : ∀ now, e ≠ .expire now) :
      Moves cfg l (.event e) ⟨e.apply cfg l.reactor, []⟩
  | callback (now : Nat) {c : Callback} {due : List Callback} (hdue : l.due = c :: due) :
      Moves cfg l (.callback now) ⟨fire cfg now l.reactor c, due⟩
  | dispatch (now : Nat) (resp : Slot) (hdue : l.due = []) :
      Moves cfg l (.dispatch now resp) ⟨dispatchResponse now l.reactor resp, []⟩
  | take : Moves cfg l .take { l with reactor := takeRequest l.reactor }

theorem moves_apply (cfg : Config) (l : Loop) (move : Move) : Moves cfg l move (move.apply cfg l) := by
  obtain ⟨r, due⟩ := l
  cases due with
  | nil =>
    cases move with
    | event e =>
      cases e with
      | expire now => exact .expire now rfl
      | _ => exact .event rfl fun now h => by cases h
    | callback now => exact .blocked _ fun _ _ _ _ h => by cases h
    | dispatch now resp => exact .dispatch now resp rfl
    | take => exact .take
  | cons c due =>
    cases move with
    | event e => cases e <;> exact .blocked _ fun _ _ _ h => by cases h
    | callback now => exact .callback now rfl
    | dispatch now resp => exact .blocked _ fun _ _ _ h => by cases h
    | take => exact .take

theorem sound_move (hsound : Sound l.reactor.sessions) (move : Move) : Sound (move.apply cfg l).reactor.sessions := by
  have hmoves := moves_apply cfg l move
  generalize move.apply cfg l = l' at hmoves ⊢
  cases hmoves with
  | blocked | expire | take => exact hsound
  | event => exact (does_event _).evolves.sound hsound
  | callback => exact (does_fire (A := fun _ _ => False) (P := fun _ _ => True) fun _ _ => trivial).evolves.sound hsound
  | dispatch now resp => exact (does_dispatch resp).evolves.sound hsound

theorem sound_run (cfg : Config) (moves : List Move) : Sound (run cfg moves).reactor.sessions := by
  induction moves using reverseRecOn with
  | nil => exact sound_start
  | append_singleton moves move ih =>
    rw [run, foldl_append]
    exact sound_move ih move

theorem affects_move {move : Move} (hs : s ≠ "") (hsound : Sound l.reactor.sessions) (hheeds : Heeds l move)
    (hnew : ¬ Creates cfg s l move) : Affects s l.reactor (move.apply cfg l).reactor := by
  have hkept (hnone : hasSession l.reactor.sessions s = false) :
      hasSession (move.apply cfg l).reactor.sessions s = false :=
    Bool.eq_false_iff.mpr fun hhas => hnew ⟨hnone, hhas⟩
  have hmoves := moves_apply cfg l move
  generalize move.apply cfg l = l' at hmoves hkept ⊢
  cases hmoves with
  | blocked => exact .refl s l.reactor
  | expire now => exact affects_withoutDue now
  | event _ hne =>
    refine affects_event hsound hne ?_ hkept
    rintro now rfl batch hbatch target htarget -
    exact hheeds batch hbatch target htarget
  | callback now hdue =>
    refine affects_fire fun _ => hheeds _ ?_
    rw [hdue]
    rfl
  | dispatch now resp => exact affects_dispatchResponse hs hheeds
  | take => exact .leaves rfl (List.Subset.refl _) (.refl _ _) rfl

/-- In every run that heeds the blacklist, from any point of it on at which a session
is terminated, and for as long as its id is not given to a new session, no frame
is sent to it and no timer is started for it; and the workers are told at most
once that it is gone. -/
theorem terminated_sessions_silent (cfg : Config) (before after : List Move) (s : String) (hs : s ≠ "")
    (hheeds : Along (Move.apply cfg) Heeds ⟨Server.start, []⟩ (before ++ after))
    (hsame : Along (Move.apply cfg) (fun l move => ¬ Creates cfg s l move) (run cfg before) after) :
    (Terminated (run cfg before).reactor.sessions s →
      framesTo s (run cfg (before ++ after)).reactor = framesTo s (run cfg before).reactor ∧
        timersOf s (run cfg (before ++ after)).reactor ⊆ timersOf s (run cfg before).reactor) ∧
      told s (run cfg (before ++ after)).reactor ≤ told s (run cfg before).reactor + 1 := by
  have haffects : Affects s (run cfg before).reactor (run cfg (before ++ after)).reactor := by
    rw [run, run, foldl_append]
    refine Along.relates (I := fun l => Sound l.reactor.sessions) (R := fun l l' => Affects s l.reactor l'.reactor)
      (fun l => .refl s l.reactor) (fun _ _ _ => .trans) (fun _ move h => sound_move h move) ?_ (sound_run cfg before)
      ((along_append.mp hheeds).2.and hsame)
    exact fun l move h hmove => affects_move hs h hmove.1 hmove.2
  refine ⟨fun ht => (haffects.silent ht).2, ?_⟩
  rcases haffects.told_le with ⟨htold, -⟩ | ⟨-, -, htold⟩
  · exact htold.le.trans (Nat.le_succ _)
  · exact htold

/-- A response for a connection that is closed already. -/
theorem closed_connection_silent :
    let before : List Move := [.event .accept, .event (.hangup "tcp_session_1")]
    let after : List Move := [.dispatch 0 (makeSendResponse "tcp_session_1" .adminReply)]
    (Terminated (run ⟨5, 3, 30⟩ before).reactor.sessions "tcp_session_1" →
      framesTo "tcp_session_1" (run ⟨5, 3, 30⟩ (before ++ after)).reactor =
          framesTo "tcp_session_1" (run ⟨5, 3, 30⟩ before).reactor ∧
        timersOf "tcp_session_1" (run ⟨5, 3, 30⟩ (before ++ after)).reactor ⊆
          timersOf "tcp_session_1" (run ⟨5, 3, 30⟩ before).reactor) ∧
      told "tcp_session_1" (run ⟨5, 3, 30⟩ (before ++ after)).reactor ≤
        told "tcp_session_1" (run ⟨5, 3, 30⟩ before).reactor + 1 := by
  refine terminated_sessions_silent ⟨5, 3, 30⟩ _ _ "tcp_session_1" (by decide) ?_ ?_
  · exact ⟨trivial, trivial, fun _ => rfl, trivial⟩
  · refine ⟨fun hcreates => ?_, trivial⟩
    exact absurd hcreates.2 (by decide)

def hubSession : String := "udp_10.0.0.7_4000"

def hubOrder (stamp : String) : Message :=
  createMessage .serverToHubOrderToDispatchStock server server hub "hub_1" (.items ⟨itemsOf [⟨1, "food", 5⟩], ""⟩) stamp

def hubArrives : List Move := [.event (.datagram ⟨"10.0.0.7", 4000⟩ "" 200)]

def hubSilent (stamps : List String) : List Move :=
  .dispatch 0 (makeMarkAuthenticated hubSession hub "hub_1") ::
    stamps.map (fun stamp => .dispatch 0 (makeSendToUsername ⟨5, 3, 30⟩ "hub_1" (hubOrder stamp) none)) ++
    [5, 10, 15].flatMap fun seconds =>
      .event (.expire (seconds * 10 ^ 9)) :: stamps.map fun _ => .callback (seconds * 10 ^ 9)

def hubLost : List Move := hubArrives ++ hubSilent ["2026-01-01"]

def lateReply : List Move :=
  [.dispatch (16 * 10 ^ 9) (makeSendResponse hubSession (.message (hubOrder "2026-01-09") none))]

/-- The blacklisted session is sent a reply that was on its way; and two timers that
expire together tell the workers twice of one session. -/
theorem blacklisted_session_served : (Terminated (run ⟨5, 3, 30⟩ hubLost).reactor.sessions hubSession ∧
      Along (Move.apply ⟨5, 3, 30⟩) (fun l move => ¬ Creates ⟨5, 3, 30⟩ hubSession l move) (run ⟨5, 3, 30⟩ hubLost)
        lateReply ∧ (framesTo hubSession (run ⟨5, 3, 30⟩ hubLost).reactor).length = 3 ∧
      (framesTo hubSession (run ⟨5, 3, 30⟩ (hubLost ++ lateReply)).reactor).length = 4) ∧
    Along (Move.apply ⟨5, 3, 30⟩) (fun l move => ¬ Creates ⟨5, 3, 30⟩ hubSession l move) (run ⟨5, 3, 30⟩ hubArrives)
      (hubSilent ["2026-01-01", "2026-01-02"]) ∧ told hubSession (run ⟨5, 3, 30⟩ hubArrives).reactor = 0 ∧
    told hubSession (run ⟨5, 3, 30⟩ (hubArrives ++ hubSilent ["2026-01-01", "2026-01-02"])).reactor = 2 := by
  refine ⟨⟨terminated_of_isBlacklisted ?_, ?_⟩, ?_⟩ <;> decide +kernel

end Logistics.SilentSessions
