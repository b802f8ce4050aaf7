import Logistics.SystemTrust

namespace Logistics.DeadSessions

open KeyedTable Ipc Trust List
open SessionManager hiding run start
open Server hiding start

section

variable {m : Sessions} {s : String} {log : List RequestSlot} {r r' : Reactor} {info : SessionInfo}

def Disconnected (log : List RequestSlot) (s : String) : Prop :=
  ∃ req ∈ log, req.isDisconnect = true ∧ req.sessionId = s

structure Buried (m : Sessions) (log : List RequestSlot) : Prop where
  sound : Sound m
  known : ∀ s, Disconnected log s → Known m s
  gone : ∀ s info, Disconnected log s → m.sessions.find? s = some info → info.isBlacklisted = true
  later : log.Pairwise fun req req' => req.isDisconnect = true → req'.isDisconnect = false →
    req'.sessionId = req.sessionId → req'.isBlacklisted = true

theorem disconnected_append {req : RequestSlot} (h : Disconnected (log ++ [req]) s) :
    Disconnected log s ∨ req.isDisconnect = true ∧ req.sessionId = s := by
  obtain ⟨q, hq, hc, hs⟩ := h
  rcases mem_append.mp hq with hq | hq
  · exact .inl ⟨q, hq, hc, hs⟩
  · rw [mem_singleton.mp hq] at hc hs
    exact .inr ⟨hc, hs⟩

def Fresh (m : Sessions) (log : List RequestSlot) (op : Op) : Prop :=
  ∀ sender, op = .udp sender → m.sessions.find? (makeUdpSessionId sender) = none →
    ¬ Disconnected log (makeUdpSessionId sender)

theorem Buried.apply (h : Buried m log) (op : Op) (hop : Fresh m log op) : Buried (op.apply m) log := by
  refine ⟨h.sound.apply op, fun s hs => (h.known s hs).mono (grows_apply m op), ?_, h.later⟩
  intro v info' hv hfind
  cases op with
  | create =>
    rw [Op.apply, find?_createSession] at hfind
    split at hfind
    · next he => exact absurd (h.known v hv _ he) (Nat.not_succ_le_self _)
    · exact h.gone v info' hv hfind
  | udp sender =>
    rw [Op.apply, find?_getOrCreateUdpSession] at hfind
    split at hfind
    · next he =>
      cases hold : m.sessions.find? v with
      | none =>
        rw [he] at hold hv
        exact absurd hv (hop sender rfl hold)
      | some info =>
        rw [hold] at hfind
        cases hfind
        exact h.gone v info hv hold
    · exact h.gone v info' hv hfind
  | mark s clientType username =>
    rw [Op.apply, find?_markAuthenticated] at hfind
    split at hfind
    · obtain ⟨info, hinfo, rfl⟩ := Option.map_eq_some_iff.mp hfind
      exact h.gone v info hv hinfo
    · exact h.gone v info' hv hfind
  | blacklist s =>
    rw [Op.apply, find?_blacklistSession] at hfind
    split at hfind
    · obtain ⟨info, hinfo, rfl⟩ := Option.map_eq_some_iff.mp hfind
      rfl
    · exact h.gone v info' hv hfind
  | remove s =>
    rw [Op.apply, find?_removeSession] at hfind
    split at hfind
    · cases hfind
    · exact h.gone v info' hv hfind

theorem Buried.request (h : Buried m log) (protocol : ProtocolType) (hinfo : m.sessions.find? s = some info)
    (rawJson : String) (payloadLen : Nat) : Buried m (log ++ [requestFor m protocol s rawJson payloadLen]) := by
  have hsame : ∀ v, Disconnected (log ++ [requestFor m protocol s rawJson payloadLen]) v → Disconnected log v :=
    fun v hv => (disconnected_append hv).resolve_right fun hc => absurd hc.1 Bool.false_ne_true
  refine ⟨h.sound, fun v hv => h.known v (hsame v hv), fun v info hv => h.gone v info (hsame v hv), ?_⟩
  rw [pairwise_append]
  refine ⟨h.later, pairwise_singleton _ _, fun req hreq q hq => ?_⟩
  rw [mem_singleton.mp hq]
  intro hc _ hs
  simp only [requestFor, isBlacklisted, hinfo, Option.map_some, Option.getD_some]
  exact h.gone s info ⟨req, hreq, hc, hs.symm⟩ hinfo

theorem Buried.ended (h : Buried m log) (hinfo : m.sessions.find? s = some info) (op : Op)
    (hop : op = .remove s ∨ op = .blacklist s) : Buried (op.apply m) (log ++ [disconnectOf info]) := by
  have happly : Buried (op.apply m) log := h.apply op (by rcases hop with rfl | rfl <;> nofun)
  have hs : info.sessionId = s := (Table.find?_eq_some.mp hinfo).2
  constructor
  · exact happly.sound
  · intro v hv
    rcases disconnected_append hv with hv | ⟨-, rfl⟩
    · exact happly.known v hv
    · exact (known_of_find? h.sound (hs ▸ hinfo)).mono (grows_apply m op)
  · intro v info' hv hfind
    rcases disconnected_append hv with hv | ⟨-, rfl⟩
    · exact happly.gone v info' hv hfind
    · change (op.apply m).sessions.find? info.sessionId = some info' at hfind
      rcases hop with rfl | rfl
      · rw [Op.apply, find?_removeSession, if_pos hs] at hfind
        cases hfind
      · rw [Op.apply, find?_blacklistSession, if_pos hs] at hfind
        obtain ⟨-, -, rfl⟩ := Option.map_eq_some_iff.mp hfind
        rfl
  · rw [pairwise_append]
    refine ⟨h.later, pairwise_singleton _ _, fun req _ q hq => ?_⟩
    rw [mem_singleton.mp hq]
    exact fun _ hc => absurd hc.symm Bool.false_ne_true

variable {A : Reactor → Op → Prop}

theorem buried_of_evolves (h : Evolves A r r') (hA : ∀ r op, A r op → Fresh r.sessions r.requests op)
    (hb : Buried r.sessions r.requests) : Buried r'.sessions r'.requests := by
  induction h with
  | same hs hq => rwa [hs, hq]
  | table op hop hs hq =>
    rw [hs, hq]
    exact hb.apply op (hA _ op hop)
  | request protocol hinfo rawJson payloadLen hs hq =>
    rw [hs, hq]
    exact hb.request protocol hinfo rawJson payloadLen
  | ended hinfo op hop hs hq =>
    rcases hq with hq | ⟨-, hq⟩
    · rw [hs, hq]
      exact hb.apply op (by rcases hop with rfl | rfl <;> nofun)
    · rw [hs, hq]
      exact hb.ended hinfo op hop
  | trans _ _ ih ih' => exact ih' (ih hb)

theorem prefix_of_evolves (h : Evolves A r r') : r.requests <+: r'.requests := by
  induction h with
  | same _ hq | table _ _ _ hq => rw [hq]
  | request _ _ _ _ _ hq =>
    rw [hq]
    exact prefix_append _ _
  | ended _ _ _ _ hq =>
    rcases hq with hq | ⟨-, hq⟩
    · rw [hq]
    · rw [hq]
      exact prefix_append _ _
  | trans _ _ ih ih' => exact ih.trans ih'

end

open Deserialize Worker ServerSystem Scenario

variable {ι : Type} [DecidableEq ι] {cfg : Config} {parse : String → Option Json} {s : String}
  {log : List RequestSlot} {σ : System ι}
variable {req : RequestSlot} {store : Store} {o : MessageHandler.Oracle}

theorem handleMessage_deadSessions {root : Json} :
    (handleMessage cfg o root req store).2.deadSessions = store.deadSessions := by
  rw [handleMessage]
  split
  · change (handleAuthRequest cfg o (deserializeMessage root) req store).2.deadSessions = _
    rw [handleAuthRequest]
    split
    · rfl
    · split <;> rfl
  all_goals rfl

theorem mem_deadSessions (h : s ∈ (processRequest cfg parse o req store).2.deadSessions) :
    s ∈ store.deadSessions ∨ req.isDisconnect = true ∧ req.sessionId = s := by
  rcases processRequest_cases cfg parse o req store with hc | ⟨-, -, he⟩ | ⟨root, -, he⟩
  · rw [processRequest, if_pos hc] at h
    dsimp only at h
    split at h
    · exact .inl h
    · rcases Finset.mem_insert.mp h with rfl | h
      · exact .inr ⟨hc, rfl⟩
      · exact .inl h
  · rw [he] at h
    exact .inl h
  · rw [he, handleMessage_deadSessions] at h
    exact .inl h

def holds : Phase → Option (Nat × RequestSlot)
  | .taken position req => some (position, req)
  | .acknowledged position req => some (position, req)
  | _ => none

structure Honest (σ : System ι) : Prop where
  buried : Buried σ.reactor.sessions σ.reactor.requests
  held : ∀ i position req, holds (σ.threads i) = some (position, req) → σ.reactor.requests[position]? = some req
  dead : ∀ s ∈ σ.store.deadSessions, Disconnected σ.reactor.requests s

/-- A step other than a datagram from an address whose last session was reported
to the workers as gone, when there is no session for it. -/
def Unused (σ : System ι) (action : Action ι) : Prop :=
  ∀ sender rawJson payloadLen, action = .reactor (.datagram sender rawJson payloadLen) →
    σ.reactor.sessions.sessions.find? (makeUdpSessionId sender) = none →
    ¬ Disconnected σ.reactor.requests (makeUdpSessionId sender)

variable {action : Action ι}

omit [DecidableEq ι] in
theorem Unused.fresh (h : Unused σ action) : ∀ r op, action.operates σ r op → Fresh r.sessions r.requests op := by
  intro r op hop
  cases action with
  | reactor e =>
    cases e with
    | accept =>
      obtain ⟨-, rfl⟩ := hop
      exact nofun
    | datagram sender rawJson payloadLen =>
      obtain ⟨rfl, rfl⟩ := hop
      rintro _ ⟨⟩
      exact h sender rawJson payloadLen rfl
    | frame | hangup | expire | wakeup => exact hop.elim
  | dispatch now => obtain ⟨resp, -, -, -, ⟨-, rfl⟩ | ⟨-, rfl⟩⟩ := hop <;> exact nofun
  | take | acknowledge | process | push => exact hop.elim

theorem getElem?_of_prefix {l l' : List RequestSlot} (h : l <+: l') {n : Nat}
    (hn : l[n]? = some req) : l'[n]? = some req := by
  obtain ⟨t, rfl⟩ := h
  rw [getElem?_append_left (List.getElem?_eq_some_iff.mp hn).1]
  exact hn

theorem Disconnected.mono {log' : List RequestSlot} (h : Disconnected log s) (hsub : log <+: log') :
    Disconnected log' s := by
  obtain ⟨req, hreq, hc⟩ := h
  exact ⟨req, hsub.subset hreq, hc⟩

theorem holds_apply {i : ι} {position : Nat} (h : holds ((action.apply cfg parse σ).threads i) = some (position, req)) :
    holds (σ.threads i) = some (position, req) ∨ σ.reactor.requests[position]? = some req := by
  have hupdate {j : ι} {phase : Phase} (h : holds (Function.update σ.threads j phase i) = some (position, req)) :
      holds (σ.threads i) = some (position, req) ∨ i = j ∧ holds phase = some (position, req) := by
    by_cases hij : i = j
    · rw [hij, Function.update_self] at h
      exact .inr ⟨hij, h⟩
    · rw [Function.update_of_ne hij] at h
      exact .inl h
  cases action with
  | reactor e => exact .inl h
  | dispatch now =>
    simp only [Action.apply] at h
    split at h <;> exact .inl h
  | take j =>
    simp only [Action.apply] at h
    split at h
    · next hreq =>
      rcases hupdate h with h | ⟨-, ⟨⟩⟩
      · exact .inl h
      · exact .inr hreq
    · exact .inl h
  | acknowledge j stamp =>
    simp only [Action.apply] at h
    split at h
    · next hj =>
      rcases hupdate h with hi | ⟨rfl, hi⟩
      · exact .inl hi
      · rw [hj]
        exact .inl hi
    · exact .inl h
  | process j o =>
    simp only [Action.apply] at h
    split at h
    · split at h
      · exact .inl h
      · exact .inl ((hupdate h).resolve_right (by rintro ⟨-, ⟨⟩⟩))
    · exact .inl h
  | push j =>
    simp only [Action.apply] at h
    split at h
    · exact .inl ((hupdate h).resolve_right (by rintro ⟨-, ⟨⟩⟩))
    · exact .inl ((hupdate h).resolve_right (by rintro ⟨-, ⟨⟩⟩))
    · exact .inl h

theorem deadSessions_apply (h : s ∈ (action.apply cfg parse σ).store.deadSessions) : s ∈ σ.store.deadSessions ∨
    ∃ i position req, holds (σ.threads i) = some (position, req) ∧ req.isDisconnect = true ∧ req.sessionId = s := by
  cases action with
  | reactor e => exact .inl h
  | process i o =>
    simp only [Action.apply] at h
    split at h
    · next position req _ hi =>
      have hdone : s ∈ (processRequest cfg parse o req σ.store).2.deadSessions := by
        split at h <;> exact h
      refine (mem_deadSessions hdone).imp_right fun hc => ⟨i, position, req, ?_, hc⟩
      rw [hi]
      rfl
    · exact .inl h
  | dispatch | take | acknowledge | push =>
    simp only [Action.apply] at h
    split at h <;> exact .inl h

theorem Honest.apply (h : Honest σ) (hunused : Unused σ action) : Honest (action.apply cfg parse σ) := by
  have hevolves : Evolves (action.operates σ) σ.reactor (action.apply cfg parse σ).reactor := evolves_action action
  have hpre := prefix_of_evolves hevolves
  constructor
  · exact buried_of_evolves hevolves hunused.fresh h.buried
  · intro i position req hi
    apply getElem?_of_prefix hpre
    rcases holds_apply hi with hi | hreq
    · exact h.held i position req hi
    · exact hreq
  · intro s hs
    apply Disconnected.mono _ hpre
    rcases deadSessions_apply hs with hs | ⟨i, position, req, hi, hc⟩
    · exact h.dead s hs
    · exact ⟨req, mem_of_getElem? (h.held i position req hi), hc⟩

omit [DecidableEq ι] in
theorem honest_start (store : Store) : Honest (start store : System ι) := by
  have hnone : ∀ s, ¬ Disconnected [] s := by
    rintro s ⟨req, hreq, -⟩
    cases hreq
  refine ⟨⟨sound_start, ?_, ?_, Pairwise.nil⟩, nofun, fun s hs => ?_⟩
  · exact fun s hs => absurd hs (hnone s)
  · exact fun s _ hs => absurd hs (hnone s)
  · exact absurd hs (Finset.notMem_empty s)

theorem honest_run {actions : List (Action ι)} (h : ∀ before action, before ++ [action] <+: actions →
      Unused (run cfg parse (start store) before) action) :
    Honest (run cfg parse (start store) actions) := by
  induction actions using reverseRecOn with
  | nil => exact honest_start store
  | append_singleton actions action ih =>
    have hbefore := ih fun before a hp => h before a (hp.trans (prefix_append actions [action]))
    rw [run, foldl_append]
    exact hbefore.apply (h actions action prefix_rfl)

/-- In every run without such a datagram: a request that a thread is about to
process, that was written for a session that was not blacklisted, and after which
no disconnect of the session was written, is not taken for one of a dead session. -/
theorem live_sessions_served (cfg : Config) (parse : String → Option Json) (store : Store) (actions : List (Action ι))
    (hunused : ∀ before action, before ++ [action] <+: actions →
      Unused (run cfg parse (start store) before) action)
    (i : ι) (position : Nat) (req : RequestSlot) :
    let σ := run cfg parse (start store) actions
    σ.threads i = .acknowledged position req → req.isDisconnect = false → req.isBlacklisted = false →
    (∀ n later, position < n → σ.reactor.requests[n]? = some later → later.isDisconnect = true →
      later.sessionId ≠ req.sessionId) → req.sessionId ∉ σ.store.deadSessions := by
  intro σ hi hc hb hlater hdead
  have hhonest : Honest σ := honest_run hunused
  have hreq : σ.reactor.requests[position]? = some req := by
    apply hhonest.held i
    rw [hi]
    rfl
  obtain ⟨q, hq, hqc, hqs⟩ := hhonest.dead _ hdead
  obtain ⟨n, hn⟩ := mem_iff_getElem?.mp hq
  rcases Nat.lt_trichotomy n position with hlt | rfl | hgt
  · obtain ⟨hnlt, rfl⟩ := List.getElem?_eq_some_iff.mp hn
    obtain ⟨hplt, rfl⟩ := List.getElem?_eq_some_iff.mp hreq
    have hblack := pairwise_iff_getElem.mp hhonest.buried.later n position hnlt hplt hlt hqc hc hqs.symm
    exact Bool.false_ne_true (hb.symm.trans hblack)
  · cases hn.symm.trans hreq
    exact Bool.false_ne_true (hc.symm.trans hqc)
  · exact hlater n q hgt hn hqc hqs

def gatewayLogin : Json :=
  .object [("msg_type", .string "GATEWAY_TO_SERVER__AUTH_REQUEST"), ("source_role", .string "GATEWAY"),
    ("source_id", .string "g1"), ("timestamp", .string "2026-01-01"),
    ("payload", .object [("username", .string "g1"), ("password", .string "secret")])]

def oneGateway : Store := { emptyStore with credentials := Table.empty.put ⟨"g1", "secret", "GATEWAY", false⟩ }

def silentClient : List (Action Unit) :=
  [.reactor (.datagram ⟨"10.0.0.7", 4000⟩ "" 200), .take (), .acknowledge () "2026-01-02", .process () plainOracle,
    .push (), .push (), .push (), .push (), .push (), .dispatch 0, .dispatch 0, .dispatch 0, .dispatch 0,
    .reactor (.expire (31 * 10 ^ 9)), .take (), .acknowledge () "2026-01-03", .process () plainOracle, .push ()]

def newcomer : List (Action Unit) :=
  [.reactor .accept, .reactor (.frame "tcp_session_1" ""), .take (), .acknowledge () "2026-01-04"]

theorem newcomer_served :
    let σ := run ⟨5, 3, 30⟩ (fun _ => some gatewayLogin) (start oneGateway)
      (silentClient ++ newcomer)
    "udp_10.0.0.7_4000" ∈ σ.store.deadSessions ∧ "tcp_session_1" ∉ σ.store.deadSessions := by
  refine ⟨by decide, ?_⟩
  apply live_sessions_served ⟨5, 3, 30⟩ (fun _ => some gatewayLogin) oneGateway (silentClient ++ newcomer) ?_ () 2
    ⟨"tcp_session_1", .tcp, "", bufferSize, false, false, false, "", ""⟩ rfl rfl rfl
  · intro n later hn hlater
    rw [getElem?_eq_none (Nat.succ_le_of_lt hn)] at hlater
    cases hlater
  · rintro before action hpre sender rawJson payloadLen rfl
    cases before with
    | nil => rintro - ⟨req, ⟨⟩, -⟩
    | cons first before =>
      have htail := (cons_prefix_cons.mp hpre).2
      have hmem := htail.subset (mem_append_right before (mem_singleton_self _))
      simp [newcomer] at hmem

def returningClient : List (Action Unit) :=
  silentClient ++ [.reactor (.datagram ⟨"10.0.0.7", 4000⟩ "" 200), .take (), .acknowledge () "2026-01-04"]

def secondLogin : RequestSlot := ⟨"udp_10.0.0.7_4000", .udp, "", 200, false, false, false, "", ""⟩

theorem returning_client_skipped :
    let σ := run ⟨5, 3, 30⟩ (fun _ => some gatewayLogin) (start oneGateway) returningClient
    σ.threads () = .acknowledged 2 secondLogin ∧ secondLogin.isDisconnect = false ∧ secondLogin.isBlacklisted = false ∧
      σ.reactor.requests.length = 3 ∧ hasSession σ.reactor.sessions secondLogin.sessionId = true ∧
      secondLogin.sessionId ∈ σ.store.deadSessions :=
  ⟨rfl, rfl, rfl, by decide, by decide, by decide⟩

end Logistics.DeadSessions
