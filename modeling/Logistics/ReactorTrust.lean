import Logistics.ServerEffects

namespace Logistics.Trust

open JsonManager AuthModule SessionManager

variable {m m' : Sessions} {s clientType username : String} {logins logins' : List (String × Credential)}

def Logged (logins : List (String × Credential)) (s clientType username : String) : Prop :=
  ∃ row, (s, row) ∈ logins ∧ clientType = safeStrcpy roleSize row.clientType ∧
    username = safeStrcpy credentialsSize row.username

theorem Logged.mono (h : Logged logins s clientType username) (hsub : logins ⊆ logins') :
    Logged logins' s clientType username := by
  obtain ⟨row, hrow, htype, hname⟩ := h
  exact ⟨row, hsub hrow, htype, hname⟩

theorem Logged.cut (h : Logged logins s clientType username) :
    Logged logins s (safeStrcpy roleSize clientType) (safeStrcpy credentialsSize username) := by
  obtain ⟨row, hrow, htype, hname⟩ := h
  exact ⟨row, hrow, by rw [htype, safeStrcpy_safeStrcpy], by rw [hname, safeStrcpy_safeStrcpy]⟩

def Known (m : Sessions) (s : String) : Prop := ∀ n, s = tcpSessionId n → n ≤ m.sessionCounter

def Settled (m : Sessions) (s : String) : Prop :=
  Known m s ∧ ∀ n info, s = tcpSessionId n → m.sessions.find? s = some info → info.isAuthenticated = true

structure Grows (m m' : Sessions) : Prop where
  counter : m.sessionCounter ≤ m'.sessionCounter
  authenticated : ∀ n info', n ≤ m.sessionCounter → m'.sessions.find? (tcpSessionId n) = some info' →
    ∃ info, m.sessions.find? (tcpSessionId n) = some info ∧ (info.isAuthenticated = true → info'.isAuthenticated = true)

theorem Grows.refl (m : Sessions) : Grows m m := ⟨le_rfl, fun _ info' _ h => ⟨info', h, id⟩⟩

theorem Grows.trans {m'' : Sessions} (h : Grows m m') (h' : Grows m' m'') : Grows m m'' := by
  refine ⟨h.counter.trans h'.counter, fun n info'' hn hfind => ?_⟩
  obtain ⟨info', hinfo', hauth'⟩ := h'.authenticated n info'' (hn.trans h.counter) hfind
  obtain ⟨info, hinfo, hauth⟩ := h.authenticated n info' hn hinfo'
  exact ⟨info, hinfo, fun ha => hauth' (hauth ha)⟩

theorem Known.mono (h : Known m s) (hg : Grows m m') : Known m' s := fun n hn => (h n hn).trans hg.counter

theorem Settled.mono (h : Settled m s) (hg : Grows m m') : Settled m' s := by
  refine ⟨h.1.mono hg, ?_⟩
  rintro n info' rfl hfind
  obtain ⟨info, hinfo, hauth⟩ := hg.authenticated n info' (h.1 n rfl) hfind
  exact hauth (h.2 n info rfl hinfo)

theorem grows_apply (m : Sessions) (op : Op) : Grows m (op.apply m) := by
  constructor
  · cases op with
    | create => exact Nat.le_succ _
    | udp endpoint => exact le_rfl
    | mark | blacklist | remove =>
      simp only [Op.apply, markAuthenticated, blacklistSession, removeSession]
      split <;> exact le_rfl
  · intro n info' hn hfind
    cases op with
    | create =>
      have hne : tcpSessionId n ≠ tcpSessionId (m.sessionCounter + 1) := by
        intro he
        have := tcpSessionId_injective he
        omega
      rw [Op.apply, find?_createSession, if_neg hne] at hfind
      exact ⟨info', hfind, id⟩
    | udp endpoint =>
      rw [Op.apply, find?_getOrCreateUdpSession] at hfind
      exact ⟨info', hfind, id⟩
    | mark s clientType username =>
      rw [Op.apply, find?_markAuthenticated] at hfind
      split at hfind
      · obtain ⟨info, hinfo, rfl⟩ := Option.map_eq_some_iff.mp hfind
        exact ⟨info, hinfo, fun _ => rfl⟩
      · exact ⟨info', hfind, id⟩
    | blacklist s =>
      rw [Op.apply, find?_blacklistSession] at hfind
      split at hfind
      · obtain ⟨info, hinfo, rfl⟩ := Option.map_eq_some_iff.mp hfind
        exact ⟨info, hinfo, id⟩
      · exact ⟨info', hfind, id⟩
    | remove s =>
      rw [Op.apply, find?_removeSession] at hfind
      split at hfind
      · cases hfind
      · exact ⟨info', hfind, id⟩

structure Genuine (logins : List (String × Credential)) (s : String) (info : SessionInfo) : Prop where
  typed : info.type = .tcp → ∃ n, s = tcpSessionId n
  named : info.isAuthenticated = true ∨ info.username ≠ "" →
    info.isAuthenticated = true ∧ Logged logins s info.clientType info.username

structure Registered (logins : List (String × Credential)) (m : Sessions) : Prop where
  sound : Sound m
  genuine : ∀ s info, m.sessions.find? s = some info → Genuine logins s info

theorem Registered.mono (h : Registered logins m) (hsub : logins ⊆ logins') : Registered logins' m := by
  refine ⟨h.sound, fun s info hinfo => ⟨(h.genuine s info hinfo).typed, fun hn => ?_⟩⟩
  obtain ⟨hauth, hlogged⟩ := (h.genuine s info hinfo).named hn
  exact ⟨hauth, hlogged.mono hsub⟩

theorem Registered.apply (h : Registered logins m) (op : Op)
    (hop : ∀ s clientType username, op = .mark s clientType username → Logged logins s clientType username) :
    Registered logins (op.apply m) := by
  refine ⟨h.sound.apply op, fun v info' hfind => ?_⟩
  cases op with
  | create =>
    rw [Op.apply, find?_createSession] at hfind
    split at hfind
    · next hv =>
      cases hfind
      exact ⟨fun _ => ⟨_, hv⟩, fun hn => by simp at hn⟩
    · exact h.genuine v info' hfind
  | udp endpoint =>
    rw [Op.apply, find?_getOrCreateUdpSession] at hfind
    split at hfind
    · cases hold : m.sessions.find? v with
      | none =>
        rw [hold] at hfind
        cases hfind
        exact ⟨by rintro ⟨⟩, fun hn => by simp at hn⟩
      | some info =>
        rw [hold] at hfind
        cases hfind
        exact ⟨(h.genuine v info hold).typed, (h.genuine v info hold).named⟩
    · exact h.genuine v info' hfind
  | mark s clientType username =>
    rw [Op.apply, find?_markAuthenticated] at hfind
    split at hfind
    · next hv =>
      obtain ⟨info, hinfo, rfl⟩ := Option.map_eq_some_iff.mp hfind
      refine ⟨(h.genuine v info hinfo).typed, fun _ => ⟨rfl, ?_⟩⟩
      rw [hv]
      exact hop s clientType username rfl
    · exact h.genuine v info' hfind
  | blacklist s =>
    rw [Op.apply, find?_blacklistSession] at hfind
    split at hfind
    · obtain ⟨info, hinfo, rfl⟩ := Option.map_eq_some_iff.mp hfind
      exact ⟨(h.genuine v info hinfo).typed, (h.genuine v info hinfo).named⟩
    · exact h.genuine v info' hfind
  | remove s =>
    rw [Op.apply, find?_removeSession] at hfind
    split at hfind
    · cases hfind
    · exact h.genuine v info' hfind

variable {info : SessionInfo}

theorem known_of_find? (h : Sound m) (hinfo : m.sessions.find? s = some info) : Known m s := by
  rintro n rfl
  by_contra hn
  rw [h.fresh n (Nat.not_le.mp hn)] at hinfo
  cases hinfo

theorem Registered.known (h : Registered logins m) (hinfo : m.sessions.find? s = some info) :
    Known m s := known_of_find? h.sound hinfo

theorem Registered.settled (h : Registered logins m) (hinfo : m.sessions.find? s = some info)
    (hauth : info.isAuthenticated = true) : Settled m s := by
  refine ⟨h.known hinfo, fun n info' _ hinfo' => ?_⟩
  cases hinfo.symm.trans hinfo'
  exact hauth

open KeyedTable Ipc TimerManager Worker Server List

variable {cfg : Config} {now : Nat} {r : Reactor} {t : Timers} {data : Frame} {resp : Slot}

def Failed : Frame → Prop
  | .message msg _ => ∃ code, msg.payload = .authResponse code ∧ code ≠ okStatus
  | _ => False

def MayGo (m : Sessions) (s : String) (data : Frame) : Prop := Failed data ∨ Settled m s

theorem MayGo.mono (h : MayGo m s data) (hg : Grows m m') : MayGo m' s data := h.imp_right fun hs => hs.mono hg

structure Traced (logins : List (String × Credential)) (m : Sessions) (req : RequestSlot) : Prop where
  known : Known m req.sessionId
  proven : req.isAuthenticated = true ∨ req.isDisconnect = true →
    Settled m req.sessionId ∧ Logged logins req.sessionId req.clientType req.username

variable {req : RequestSlot}

theorem Traced.mono (h : Traced logins m req) (hg : Grows m m') (hsub : logins ⊆ logins') : Traced logins' m' req :=
  ⟨h.known.mono hg, fun hp => ⟨(h.proven hp).1.mono hg, (h.proven hp).2.mono hsub⟩⟩

def Harmless (m : Sessions) : Callback → Prop
  | .ackTimeout s _ payload _ _ => MayGo m s payload
  | .keepaliveTimeout _ => True

variable {c : Callback}

theorem Harmless.mono (h : Harmless m c) (hg : Grows m m') : Harmless m' c := by
  cases c with
  | ackTimeout => exact MayGo.mono h hg
  | keepaliveTimeout => trivial

structure Clean (logins : List (String × Credential)) (r : Reactor) : Prop where
  table : Registered logins r.sessions
  requests : ∀ req ∈ r.requests, Traced logins r.sessions req
  timers : ∀ k e, r.timers.entries.find? k = some e → Harmless r.sessions e.callback
  posted : ∀ batch ∈ r.posted, ∀ target ∈ batch.targets, Settled r.sessions target
  sent : ∀ x ∈ r.sent, Failed x.data ∨
    (x.info.type = .tcp → x.info.isAuthenticated = true ∧
      ∃ n, x.info.sessionId = tcpSessionId n ∧ Settled r.sessions (tcpSessionId n))

theorem Clean.mono (h : Clean logins r) (hsub : logins ⊆ logins') : Clean logins' r :=
  ⟨h.table.mono hsub, fun req hreq => (h.requests req hreq).mono (.refl _) hsub, h.timers, h.posted, h.sent⟩

theorem Clean.op (h : Clean logins r) (op : Op)
    (hop : ∀ s clientType username, op = .mark s clientType username → Logged logins s clientType username) :
    Clean logins { r with sessions := op.apply r.sessions } := by
  have hg := grows_apply r.sessions op
  constructor
  · exact h.table.apply op hop
  · exact fun req hreq => (h.requests req hreq).mono hg (Subset.refl _)
  · exact fun k e he => (h.timers k e he).mono hg
  · exact fun batch hb target ht => (h.posted batch hb target ht).mono hg
  · intro x hx
    refine (h.sent x hx).imp_right fun hok htype => ?_
    obtain ⟨hauth, n, hn, hs⟩ := hok htype
    exact ⟨hauth, n, hn, hs.mono hg⟩

theorem Clean.push (h : Clean logins r) (hreq : Traced logins r.sessions req) : Clean logins (pushRequest r req) := by
  rw [pushRequest]
  split
  · refine ⟨h.table, ?_, h.timers, h.posted, h.sent⟩
    intro q hq
    rcases mem_append.mp hq with hq | hq
    · exact h.requests q hq
    · rw [mem_singleton.mp hq]
      exact hreq
  · exact h

theorem Clean.send (h : Clean logins r) (hgo : MayGo r.sessions s data) : Clean logins (sendToSession r s data) := by
  rw [sendToSession]
  split
  · exact h
  · next info hinfo =>
    refine ⟨h.table, h.requests, h.timers, h.posted, ?_⟩
    intro x hx
    rcases mem_append.mp hx with hx | hx
    · exact h.sent x hx
    · rw [mem_singleton.mp hx]
      refine hgo.imp_right fun hs htype => ?_
      obtain ⟨n, hn⟩ := (h.table.genuine s info hinfo).typed htype
      obtain rfl : info.sessionId = s := (Table.find?_eq_some.mp hinfo).2
      exact ⟨hs.2 n info hn hinfo, n, hn, hn ▸ hs⟩

theorem Clean.setTimers (h : Clean logins r)
    (ht : ∀ k e, t.entries.find? k = some e → r.timers.entries.find? k = some e ∨ Harmless r.sessions e.callback) :
    Clean logins { r with timers := t } := by
  refine ⟨h.table, h.requests, ?_, h.posted, h.sent⟩
  intro k e he
  rcases ht k e he with he | hc
  · exact h.timers k e he
  · exact hc

theorem Clean.insertTimer (h : Clean logins r) {key : TimerKey} {timeout : Nat} (hc : Harmless r.sessions c) :
    Clean logins { r with timers := insertTimer r.timers now key timeout c } := by
  apply h.setTimers
  intro k e he
  rw [find?_insertTimer] at he
  split at he
  · cases he
    exact .inr hc
  · exact .inl he

theorem Clean.notifyDisconnect (h : Clean logins r) (hinfo : r.sessions.sessions.find? s = some info) :
    Clean logins (notifyDisconnect r info) := by
  rw [Server.notifyDisconnect]
  split
  · exact h
  · next hnot =>
    rw [not_or] at hnot
    obtain ⟨hauth, hlogged⟩ := (h.table.genuine s info hinfo).named (.inr hnot.2)
    obtain rfl : info.sessionId = s := (Table.find?_eq_some.mp hinfo).2
    exact h.push ⟨h.table.known hinfo, fun _ => ⟨h.table.settled hinfo hauth, hlogged.cut⟩⟩

theorem traced_requestFor (h : Registered logins m) (protocol : ProtocolType) (hinfo : m.sessions.find? s = some info)
    (rawJson : String) (payloadLen : Nat) : Traced logins m (requestFor m protocol s rawJson payloadLen) := by
  refine ⟨h.known hinfo, fun hp => ?_⟩
  simp only [requestFor, isAuthenticated, getClientType, getSessionInfo, hinfo, Option.map_some, Option.getD_some,
    reduceCtorEq, or_false] at hp ⊢
  exact ⟨h.settled hinfo hp, ((h.genuine s info hinfo).named (.inl hp)).2.cut⟩

theorem grows_of_evolves {A : Reactor → Op → Prop} {r r' : Reactor} (h : Evolves A r r') :
    Grows r.sessions r'.sessions := by
  induction h with
  | same hs _ | request _ _ _ _ hs _ =>
    rw [hs]
    exact .refl _
  | table op _ hs _ | ended _ op _ hs _ =>
    rw [hs]
    exact grows_apply _ op
  | trans _ _ ih ih' => exact ih.trans ih'

def Permits (m : Sessions) : Act → Prop
  | .send s data | .timed s _ data | .start s _ data => MayGo m s data
  | .post batch => ∀ target ∈ batch.targets, Settled m target
  | _ => True

theorem Clean.of_does {A : Reactor → Op → Prop} {P : Sessions → Act → Prop} {m₀ : Sessions} {r' : Reactor}
    (h : Clean logins r) (hd : Does A P r r')
    (hA : ∀ r s clientType username, A r (.mark s clientType username) → Logged logins s clientType username)
    (hP : ∀ m act, Grows m₀ m → P m act → Permits m act) (hg : Grows m₀ r.sessions) : Clean logins r' := by
  induction hd with
  | refl => exact h
  | drop ht => exact h.setTimers fun k e he => .inl (ht k e he)
  | send _ hact => exact h.send (hP _ _ hg hact)
  | timed now timeout retryCount maxRetries _ hact =>
    refine (h.send (hP _ _ hg hact)).insertTimer ?_
    rw [sendToSession_sessions]
    exact hP _ _ hg hact
  | start now timeout retryCount maxRetries hact => exact h.insertTimer (hP _ _ hg hact)
  | keepalive => exact h.insertTimer trivial
  | post hact =>
    refine ⟨h.table, h.requests, h.timers, fun batch hb => ?_, h.sent⟩
    exact (mem_append.mp hb).elim (h.posted batch) fun hnew => hP _ _ hg (hact batch hnew)
  | wake => exact ⟨h.table, h.requests, h.timers, fun _ hb => absurd hb not_mem_nil, h.sent⟩
  | table op hop =>
    refine h.op op ?_
    rintro s clientType username rfl
    exact hA _ s clientType username hop
  | request protocol hinfo rawJson payloadLen => exact h.push (traced_requestFor h.table protocol hinfo rawJson payloadLen)
  | ended hinfo op hop => exact (h.notifyDisconnect hinfo).op op (by rcases hop with rfl | ⟨rfl, -⟩ <;> nofun)
  | trans hd _ ih ih' => exact ih' (ih h hg) (hg.trans (grows_of_evolves hd.evolves))

theorem Clean.event (h : Clean logins r) (e : Event) : Clean logins (e.apply cfg r) := by
  refine h.of_does (does_event e) (fun _ _ _ _ hop => ?_) (fun m act hg hact => ?_) (.refl _)
  · cases e with
    | accept | datagram => cases hop.2
    | _ => exact hop.elim
  · cases e with
    | hangup =>
      obtain ⟨rfl, -⟩ := hact
      trivial
    | expire now =>
      obtain ⟨e, he, hact⟩ := hact
      have hc := (h.timers e.key e (find?_of_mem_dueEntries he)).mono hg
      generalize e.callback = c at hact hc
      cases hact with
      | resend => exact hc
      | giveUp | silence => trivial
    | wakeup now =>
      obtain ⟨-, rfl | ⟨batch, hb, target, ht, rfl | ⟨-, rfl⟩⟩⟩ := hact
      · trivial
      · exact .inr ((h.posted batch hb target ht).mono hg)
      · exact .inr ((h.posted batch hb target ht).mono hg)
    | accept | frame | datagram => exact hact.elim

theorem tcpSessionId_ne_empty (n : Nat) : tcpSessionId n ≠ "" := by
  intro h
  have htext := congrArg String.toList h
  simp [tcpSessionId] at htext

theorem settled_empty (m : Sessions) : Settled m "" :=
  ⟨fun n hn => absurd hn.symm (tcpSessionId_ne_empty n), fun n _ hn => absurd hn.symm (tcpSessionId_ne_empty n)⟩

theorem Registered.settled_of_mem (h : Registered logins m) (hs : s ∈ getAuthenticatedSessions m) : Settled m s := by
  obtain ⟨info, hmem, rfl⟩ := mem_map.mp hs
  obtain ⟨hmem, hok⟩ := mem_filter.mp hmem
  exact h.settled (Table.find?_eq_some.mpr ⟨hmem, rfl⟩) (of_decide_eq_true hok).1

structure Admissible (logins : List (String × Credential)) (m : Sessions) (resp : Slot) : Prop where
  mark : resp.command = .markAuthenticated →
    Known m resp.sessionId ∧ Logged logins resp.sessionId resp.clientType resp.username
  frame : resp.command = .send ∨ resp.command = .startAckTimer → MayGo m resp.sessionId resp.payload

theorem Clean.dispatch (h : Clean logins r) (hresp : Admissible logins r.sessions resp) :
    Clean logins (dispatchResponse now r resp) := by
  have htarget {target : String} (hc : resp.command = .send) (ht : sendTarget r.sessions resp = some target) :
      MayGo r.sessions target resp.payload := by
    rw [sendTarget] at ht
    split at ht
    · obtain ⟨info, hinfo, hauth, -⟩ := usable_of_findSessionByUsername ht
      exact .inr (h.table.settled hinfo hauth)
    · cases ht
      exact hresp.frame (.inl hc)
  refine h.of_does (does_dispatch resp) ?_ ?_ (.refl _)
  · rintro _ s clientType username ⟨-, ⟨hc, hop⟩ | ⟨-, hop⟩⟩
    · cases hop
      exact (hresp.mark hc).2
    · cases hop
  · rintro _ act - ⟨rfl, -, hact⟩
    cases hact with
    | send hc ht | timed hc ht => exact htarget hc ht
    | nobody => exact .inr (settled_empty _)
    | start hc => exact hresp.frame (.inr hc)
    | batch _ hact =>
      obtain ⟨target, ht, rfl | ⟨-, rfl⟩⟩ := hact
      · exact .inr (h.table.settled_of_mem (mem_of_mem_take ht))
      · exact .inr (h.table.settled_of_mem (mem_of_mem_take ht))
    | post _ hbatch =>
      obtain ⟨k, -, rfl⟩ := mem_map.mp hbatch
      exact fun target ht => h.table.settled_of_mem (mem_of_mem_drop (mem_of_mem_take ht))
    | keepalive | ends => trivial

end Logistics.Trust
