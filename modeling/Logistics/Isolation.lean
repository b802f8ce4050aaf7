import Logistics.SystemTrust

namespace Logistics.Isolation

open KeyedTable Ipc JsonManager MessageHandler Deserialize AuthModule Worker ServerSystem Trust Scenario List
open SessionManager hiding run start
open Server hiding start

variable {ι : Type} [DecidableEq ι] {cfg : Config} {parse : String → Option Json} {o : Oracle} {msg : Message}
  {req : RequestSlot} {store : Store} {σ : System ι} {s : String}

def Refuses (s : String) (resp : Slot) : Prop :=
  ∃ role id code stamp response, createAuthResponseMessage role id code stamp = some response ∧ code ≠ okStatus ∧
    resp = makeSendResponse s (.message response none)

theorem handleAuthRequest_of_not_valid (h : ¬ Valid store.credentials (loginFields msg).1 (loginFields msg).2) :
    (handleAuthRequest cfg o msg req store).2 = store ∧
      ∀ resp ∈ (handleAuthRequest cfg o msg req store).1, Refuses req.sessionId resp := by
  rw [handleAuthRequest]
  simp only [authenticate_of_not_valid _ h]
  split
  · exact ⟨rfl, forall_mem_nil _⟩
  · next response hresponse =>
    refine ⟨rfl, forall_mem_singleton.mpr ⟨_, _, _, _, response, hresponse, ?_, rfl⟩⟩
    decide

theorem processRequest_of_stranger (hc : req.isDisconnect = false) (hauth : req.isAuthenticated = false)
    (hlogin : loginOf parse req store = none) : (processRequest cfg parse o req store).2 = store ∧ ∃ responses,
    (processRequest cfg parse o req store).1 = some responses ∧ ∀ resp ∈ responses, Refuses req.sessionId resp := by
  rcases processRequest_cases cfg parse o req store with h | ⟨-, -, he⟩ | ⟨root, hroot, he⟩
  · exact absurd (hc.symm.trans h) Bool.false_ne_true
  · rw [he]
    exact ⟨rfl, [], rfl, forall_mem_nil _⟩
  · have hcat : categorizeMessage (deserializeMessage root).msgType = .authRequest :=
      hroot.authorized.resolve_right (by simp [hauth])
    have hnot : ¬ Valid store.credentials (loginFields (deserializeMessage root)).1
        (loginFields (deserializeMessage root)).2 := by
      rintro ⟨row, hrow, hpass⟩
      rw [loginOf_of_accepted hroot hcat hrow hpass] at hlogin
      cases hlogin
    rw [he, handleMessage, hcat]
    exact ⟨(handleAuthRequest_of_not_valid hnot).1, _, rfl, (handleAuthRequest_of_not_valid hnot).2⟩

theorem logins_apply (action : Action ι) : σ.logins ⊆ (action.apply cfg parse σ).logins := by
  cases action with
  | reactor e => exact Subset.refl _
  | process i o =>
    simp only [Action.apply]
    split
    · split <;> exact subset_append_left _ _
    · exact Subset.refl _
  | dispatch | take | acknowledge | push =>
    simp only [Action.apply]
    split <;> exact Subset.refl _

theorem logins_run (actions : List (Action ι)) : σ.logins ⊆ (run cfg parse σ actions).logins := by
  induction actions generalizing σ with
  | nil => exact Subset.refl _
  | cons action actions ih => exact Subset.trans (logins_apply action) ih

omit [DecidableEq ι] in
theorem stranger_of_traced (hs : ∀ row, (req.sessionId, row) ∉ σ.logins) (h : Traced σ.logins σ.reactor.sessions req) :
    req.isAuthenticated = false ∧ req.isDisconnect = false := by
  rw [← Bool.not_eq_true, ← Bool.not_eq_true, ← not_or]
  intro hp
  obtain ⟨row, hrow, -⟩ := (h.proven hp).2
  exact hs row hrow

variable {position : Nat}

theorem acknowledge_of_stranger (h : Trusted σ) (hs : ∀ row, (req.sessionId, row) ∉ σ.logins) {i : ι}
    (hi : σ.threads i = .taken position req) (stamp : String) :
    ((Action.acknowledge i stamp).apply cfg parse σ).responses = σ.responses := by
  have hheld := h.threads i
  rw [hi] at hheld
  have hnone : generateAck parse stamp req = none := by
    rw [generateAck, if_pos (.inr (.inr (stranger_of_traced hs hheld).1))]
  simp only [Action.apply, hi]
  split
  · next heq =>
    cases heq
    rw [hnone]
    exact append_nil _
  · rfl

theorem process_of_stranger (h : Trusted σ) {i : ι} (hrunning : σ.running = true)
    (hi : σ.threads i = .acknowledged position req) (o : Oracle)
    (hs : ∀ row, (req.sessionId, row) ∉ ((Action.process i o).apply cfg parse σ).logins) :
    ((Action.process i o).apply cfg parse σ).store = σ.store ∧
      ∃ responses, ((Action.process i o).apply cfg parse σ).threads i = .pushing responses ∧
        ∀ resp ∈ responses, Refuses req.sessionId resp := by
  have hheld := h.threads i
  rw [hi] at hheld
  obtain ⟨hauth, hc⟩ := stranger_of_traced (fun row hrow => hs row (logins_apply _ hrow)) hheld
  have hlogin : loginOf parse req σ.store = none := by
    rw [Option.eq_none_iff_forall_ne_some]
    intro row hrow
    apply hs row
    simp only [Action.apply, hrunning, hi, hrow]
    split <;> exact mem_append_right _ (mem_singleton_self _)
  have hdone : (processRequest cfg parse o req σ.store).2 = σ.store ∧ _ := processRequest_of_stranger hc hauth hlogin
  obtain ⟨hstore, responses, hresponses, hrefuses⟩ := hdone
  simp only [Action.apply, hrunning, hi, hresponses]
  exact ⟨hstore, responses, Function.update_self _ _ _, hrefuses⟩

/-- Along every run, the requests of a session on which no valid login is ever
presented are not acknowledged, change no row and are at most refused. -/
theorem unauthenticated_isolated (cfg : Config) (parse : String → Option Json) (store : Store)
    (actions : List (Action ι)) (s : String)
    (hs : ∀ row, (s, row) ∉ (run cfg parse (start store) actions).logins)
    (before : List (Action ι)) (action : Action ι) (hpre : before ++ [action] <+: actions) (i : ι) (position : Nat)
    (req : RequestSlot) (hreq : req.sessionId = s) :
    let σ := run cfg parse (start store) before
    let σ' := action.apply cfg parse σ
    (∀ stamp, action = .acknowledge i stamp → σ.threads i = .taken position req → σ'.responses = σ.responses) ∧
    (∀ o, action = .process i o → σ.running = true → σ.threads i = .acknowledged position req →
      σ'.store.credentials = σ.store.credentials ∧ σ'.store.db = σ.store.db ∧
        ∃ responses, σ'.threads i = .pushing responses ∧ ∀ resp ∈ responses, Refuses s resp) := by
  intro σ σ'
  subst hreq
  have htrusted : Trusted σ := (trusted_start store).run before
  have hstranger : ∀ row, (req.sessionId, row) ∉ σ'.logins := by
    obtain ⟨after, rfl⟩ := hpre
    rw [run, foldl_append, foldl_append] at hs
    exact fun row hrow => hs row (logins_run after hrow)
  constructor
  · rintro stamp rfl hi
    exact acknowledge_of_stranger htrusted (fun row hrow => hstranger row (logins_apply _ hrow)) hi stamp
  · rintro o rfl hrunning hi
    obtain ⟨hstore, hresponses⟩ := process_of_stranger htrusted hrunning hi o hstranger
    exact ⟨congrArg Store.credentials hstore, congrArg Store.db hstore, hresponses⟩

def wrongLogin : Json :=
  .object [("msg_type", .string "HUB_TO_SERVER__AUTH_REQUEST"), ("source_role", .string "HUB"),
    ("source_id", .string "h1"), ("timestamp", .string "2026-01-01"),
    ("payload", .object [("username", .string "h1"), ("password", .string "guess")])]

def wrongLoginRun : List (Action Unit) :=
  [.reactor .accept, .reactor (.frame "tcp_session_1" ""), .take (), .acknowledge () "2026-01-02"]

theorem wrong_login_refused :
    let σ := run ⟨5, 3, 30⟩ (fun _ => some wrongLogin) (start emptyStore)
      (wrongLoginRun ++ [.process () plainOracle])
    σ.store.credentials = Table.empty ∧ ∃ responses, σ.threads () = .pushing responses ∧
      ∀ resp ∈ responses, Refuses "tcp_session_1" resp := by
  intro σ
  have h := (unauthenticated_isolated ⟨5, 3, 30⟩ (fun _ => some wrongLogin) emptyStore
    (wrongLoginRun ++ [.process () plainOracle]) "tcp_session_1" (fun row hrow => absurd hrow not_mem_nil)
    wrongLoginRun (.process () plainOracle) prefix_rfl () 0
    ⟨"tcp_session_1", .tcp, "", 1024, false, false, false, "", ""⟩ rfl).2 plainOracle rfl rfl rfl
  exact ⟨h.1, h.2.2⟩

end Logistics.Isolation
