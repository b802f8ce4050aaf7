import Logistics.SystemTrust

namespace Logistics.AuthVisibility

open KeyedTable JsonManager Deserialize Worker ServerSystem Trust List Scenario
open SessionManager hiding run start
open Server hiding start

variable {ι : Type} [DecidableEq ι] {cfg : Config} {parse : String → Option Json} {r r' : Reactor} {σ : System ι}
  {n : Nat}

def Succeeded : Frame → Prop
  | .message msg _ => msg.payload = .authResponse okStatus
  | _ => False

theorem not_failed_of_succeeded {data : Frame} (h : Succeeded data) : ¬ Failed data := by
  cases data with
  | message msg transactionId =>
    rintro ⟨code, hcode, hne⟩
    cases h.symm.trans hcode
    exact hne rfl
  | empty | adminReply | gatewayReply => exact h.elim

theorem appends_of_evolves {A : Reactor → Op → Prop} (h : Evolves A r r') (hs : Settled r.sessions (tcpSessionId n)) :
    ∃ new, r'.requests = r.requests ++ new ∧
      ∀ req ∈ new, req.sessionId = tcpSessionId n → req.isAuthenticated = true := by
  induction h with
  | same _ hq | table _ _ _ hq => exact ⟨[], by rw [hq, append_nil], forall_mem_nil _⟩
  | request protocol hinfo rawJson payloadLen _ hq =>
    refine ⟨_, hq, forall_mem_singleton.mpr ?_⟩
    rintro rfl
    simp only [requestFor, isAuthenticated, hinfo, Option.map_some, Option.getD_some]
    exact hs.2 n _ rfl hinfo
  | ended _ _ _ _ hq =>
    rcases hq with hq | ⟨-, hq⟩
    · exact ⟨[], by rw [hq, append_nil], forall_mem_nil _⟩
    · exact ⟨_, hq, forall_mem_singleton.mpr fun _ => rfl⟩
  | trans h _ ih ih' =>
    obtain ⟨new, hq, hnew⟩ := ih hs
    obtain ⟨new', hq', hnew'⟩ := ih' (hs.mono (grows_of_evolves h))
    refine ⟨new ++ new', by rw [hq', hq, append_assoc], ?_⟩
    exact forall_mem_append.mpr ⟨hnew, hnew'⟩

theorem appends_run (hs : Settled σ.reactor.sessions (tcpSessionId n)) (actions : List (Action ι)) :
    ∃ new, (run cfg parse σ actions).reactor.requests = σ.reactor.requests ++ new ∧
      ∀ req ∈ new, req.sessionId = tcpSessionId n → req.isAuthenticated = true := by
  rw [run]
  induction actions generalizing σ with
  | nil => exact ⟨[], (append_nil _).symm, forall_mem_nil _⟩
  | cons action actions ih =>
    have h : Evolves (action.operates σ) σ.reactor (action.apply cfg parse σ).reactor := evolves_action action
    obtain ⟨new, hq, hnew⟩ := appends_of_evolves h hs
    obtain ⟨new', hq', hnew'⟩ := ih (hs.mono (grows_of_evolves h))
    refine ⟨new ++ new', by rw [foldl_cons, hq', hq, append_assoc], ?_⟩
    exact forall_mem_append.mpr ⟨hnew, hnew'⟩

/-- In every run: when a success reply has been handed to the socket of a TCP
session, the session was authenticated then, and all requests written for it since
carry the authentication and a user who has logged in on it. -/
theorem authentication_visible (cfg : Config) (parse : String → Option Json) (store : Store)
    (before after : List (Action ι)) (x : Sent) :
    let σ := run cfg parse (start store) before
    let σ' := run cfg parse σ after
    x ∈ σ.reactor.sent → x.info.type = .tcp → Succeeded x.data →
      x.info.isAuthenticated = true ∧
        ∀ req ∈ σ'.reactor.requests.drop σ.reactor.requests.length, req.sessionId = x.info.sessionId →
          req.isAuthenticated = true ∧ Logged σ'.logins req.sessionId req.clientType req.username := by
  intro σ σ' hx htype hdata
  have htrusted : Trusted σ := (trusted_start store).run before
  obtain ⟨hauth, n, hn, hsettled⟩ := (htrusted.clean.sent x hx).resolve_left (not_failed_of_succeeded hdata) htype
  refine ⟨hauth, fun req hreq hs => ?_⟩
  obtain ⟨new, hq, hnew⟩ : ∃ new, σ'.reactor.requests = σ.reactor.requests ++ new ∧ _ := appends_run hsettled after
  rw [hq, drop_left] at hreq
  have hproof := hnew req hreq (hs.trans hn)
  have htraced := (htrusted.run after).clean.requests req (hq ▸ mem_append_right _ hreq)
  exact ⟨hproof, (htraced.proven (.inl hproof)).2⟩

def hubLogin : Json :=
  .object [("msg_type", .string "HUB_TO_SERVER__AUTH_REQUEST"), ("source_role", .string "HUB"),
    ("source_id", .string "h1"), ("timestamp", .string "2026-01-01"),
    ("payload", .object [("username", .string "h1"), ("password", .string "secret")])]

def oneUser : Store := { emptyStore with credentials := Table.empty.put ⟨"h1", "secret", "HUB", false⟩ }

def hubLoginRun : List (Action Unit) :=
  [.reactor .accept, .reactor (.frame "tcp_session_1" ""), .take (), .acknowledge () "2026-01-02",
    .process () plainOracle,
    .push (), .push (), .dispatch 0, .dispatch 0]

theorem hub_login_visible : Logged (run ⟨5, 3, 30⟩ (fun _ => some hubLogin)
    (run ⟨5, 3, 30⟩ (fun _ => some hubLogin) (start oneUser) hubLoginRun)
    [.reactor (.frame "tcp_session_1" "")]).logins "tcp_session_1" "HUB" "h1" :=
  ((authentication_visible ⟨5, 3, 30⟩ (fun _ => some hubLogin) oneUser hubLoginRun
    [.reactor (.frame "tcp_session_1" "")]
    ⟨⟨"tcp_session_1", true, false, "HUB", "h1", .tcp, none⟩,
      .message (createMessage .serverToHubAuthResponse server server hub "h1" (.authResponse okStatus) "2026-01-05")
        none⟩
    (mem_singleton.mpr rfl) rfl rfl).2
    ⟨"tcp_session_1", .tcp, "", bufferSize, true, false, false, "HUB", "h1"⟩ (mem_singleton.mpr rfl) rfl).2

end Logistics.AuthVisibility
