import Logistics.ReactorTrust
import Logistics.ServerSystem
import Logistics.WorkerSurvival

namespace Logistics.Trust

open KeyedTable Ipc JsonManager MessageHandler Deserialize AuthModule SessionManager Worker Server List

section

variable {cfg : Config} {o : Oracle} {msg : Message} {req : RequestSlot} {store : Store}
  {m m' : Sessions} {s : String} {logins logins' : List (String × Credential)} {resp : Slot} {l l' : List Slot}
  {M M' : Set String}

def marks (l : List Slot) : Set String := {s | ∃ resp ∈ l, resp.command = .markAuthenticated ∧ resp.sessionId = s}

theorem marks_append (l l' : List Slot) : marks (l ++ l') = marks l ∪ marks l' := by
  ext s
  simp only [marks, Set.mem_ofPred_eq, Set.mem_union, mem_append, or_and_right, exists_or]

structure Ready (logins : List (String × Credential)) (m : Sessions) (M : Set String) (resp : Slot) : Prop where
  mark : resp.command = .markAuthenticated →
    Known m resp.sessionId ∧ Logged logins resp.sessionId resp.clientType resp.username
  frame : resp.command = .send ∨ resp.command = .startAckTimer →
    resp.sessionId ∈ M ∨ MayGo m resp.sessionId resp.payload

def InOrder (logins : List (String × Credential)) (m : Sessions) : Set String → List Slot → Prop
  | _, [] => True
  | M, resp :: rest => Ready logins m M resp ∧ InOrder logins m (M ∪ marks [resp]) rest

theorem Ready.mono (h : Ready logins m M resp) (hg : Grows m m') (hsub : logins ⊆ logins')
    (hM : ∀ s ∈ M, s ∈ M' ∨ Settled m' s) : Ready logins' m' M' resp := by
  constructor
  · exact fun hc => ⟨(h.mark hc).1.mono hg, (h.mark hc).2.mono hsub⟩
  · intro hc
    rcases h.frame hc with hs | hgo
    · exact (hM _ hs).imp_right .inr
    · exact .inr (hgo.mono hg)

theorem InOrder.mono (h : InOrder logins m M l) (hg : Grows m m') (hsub : logins ⊆ logins')
    (hM : ∀ s ∈ M, s ∈ M' ∨ Settled m' s) : InOrder logins' m' M' l := by
  induction l generalizing M M' with
  | nil => trivial
  | cons resp rest ih =>
    refine ⟨h.1.mono hg hsub hM, ih h.2 ?_⟩
    rintro s (hs | hs)
    · exact (hM s hs).imp_left .inl
    · exact .inl (.inr hs)

theorem InOrder.append (h : InOrder logins m M l) (h' : InOrder logins m (M ∪ marks l) l') :
    InOrder logins m M (l ++ l') := by
  induction l generalizing M with
  | nil =>
    apply h'.mono (.refl m) (Subset.refl _)
    rintro s (hs | ⟨_, hs, -⟩)
    · exact .inl hs
    · cases hs
  | cons resp rest ih =>
    refine ⟨h.1, ih h.2 ?_⟩
    rwa [Set.union_assoc, ← marks_append]

theorem inOrder_of_ready (h : ∀ resp ∈ l, Ready logins m M resp) : InOrder logins m M l := by
  induction l generalizing M with
  | nil => trivial
  | cons resp rest ih =>
    refine ⟨h resp mem_cons_self, ih fun x hx => ?_⟩
    exact (h x (mem_cons_of_mem resp hx)).mono (.refl m) (Subset.refl _) fun _ hs => .inl (.inl hs)

theorem ready_of_settled (hmark : resp.command ≠ .markAuthenticated) (hs : Settled m resp.sessionId) :
    Ready logins m M resp :=
  ⟨fun hc => absurd hc hmark, fun _ => .inr (.inr hs)⟩

theorem ready_slotOf (hs : Settled m s) {command : ApiGateway.Command} {db : Database.Db} :
    ∀ r ∈ (handleOtherMessage o s msg command db).1.getD [], Ready logins m M (slotOf cfg r) := by
  refine (handles_handleOtherMessage ..).forall_sent ?_ ?_ ?_ ?_ ?_ ?_ ?_
  all_goals
    intros
    first | exact ready_of_settled nofun hs | exact ready_of_settled nofun (settled_empty m)

theorem loginSlots_own (response : Message) (inventory : Option Message) (isCli : Prop) [Decidable isCli] :
    ∀ resp ∈ [makeSendResponse s (.message response none)] ++ (if isCli then [] else [makeStartTimer cfg s response]) ++
        (match inventory with
          | none => []
          | some m => [makeSendResponse s (.message m none), makeStartTimer cfg s m]) ++
        (if isCli then [] else [makeStartKeepaliveTimer cfg s]),
      resp.command ≠ .markAuthenticated ∧ resp.sessionId = s := by
  simp only [forall_mem_append, forall_mem_singleton]
  refine ⟨⟨⟨⟨nofun, rfl⟩, ?_⟩, ?_⟩, ?_⟩
  · split
    · exact forall_mem_nil _
    · exact forall_mem_singleton.mpr ⟨nofun, rfl⟩
  · cases inventory with
    | none => exact forall_mem_nil _
    | some m =>
      simp only [forall_mem_cons]
      exact ⟨⟨nofun, rfl⟩, ⟨nofun, rfl⟩, forall_mem_nil _⟩
  · split
    · exact forall_mem_nil _
    · exact forall_mem_singleton.mpr ⟨nofun, rfl⟩

theorem handleAuthRequest_cases (cfg : Config) (o : Oracle) (msg : Message) (req : RequestSlot) (store : Store) :
    (handleAuthRequest cfg o msg req store).1 = [] ∨ (∃ response, Failed (.message response none) ∧
        handleAuthRequest cfg o msg req store = ([makeSendResponse req.sessionId (.message response none)], store)) ∨
      ∃ row rest, store.credentials.find? (loginFields msg).1 = some row ∧ row.passwordHash = (loginFields msg).2 ∧
        (handleAuthRequest cfg o msg req store).1 =
          makeMarkAuthenticated req.sessionId row.clientType row.username :: rest ∧
        ∀ resp ∈ rest, resp.command ≠ .markAuthenticated ∧ resp.sessionId = req.sessionId := by
  rw [handleAuthRequest]
  split
  · exact .inl rfl
  next response hresponse =>
  rcases authenticate_eq (fun n => (o.attempt n).fault) (loginFields msg).1 (loginFields msg).2 store.credentials with
    hauth | ⟨row, hrow, hpass, hauth⟩
  · rw [hauth] at hresponse ⊢
    obtain ⟨t, -, rfl⟩ := Option.map_eq_some_iff.mp hresponse
    exact .inr (.inl ⟨_, ⟨_, rfl, show AuthResultCode.invalidCredentials.value ≠ okStatus by decide⟩, rfl⟩)
  · have hname : row.username = (loginFields msg).1 := (Table.find?_eq_some.mp hrow).2
    rw [hauth]
    exact .inr (.inr ⟨row, _, hrow, hpass, by rw [hname]; rfl, loginSlots_own _ _ _⟩)

theorem inOrder_handleAuthRequest (hknown : Known m req.sessionId)
    (hlogin : ∀ row, store.credentials.find? (loginFields msg).1 = some row →
      row.passwordHash = (loginFields msg).2 → (req.sessionId, row) ∈ logins) :
    InOrder logins m M (handleAuthRequest cfg o msg req store).1 := by
  rcases handleAuthRequest_cases cfg o msg req store with h | ⟨response, hfailed, h⟩ | ⟨row, rest, hrow, hpass, h, hrest⟩
  · rw [h]
    trivial
  · rw [h]
    exact ⟨⟨nofun, fun _ => .inr (.inl hfailed)⟩, trivial⟩
  · rw [h]
    refine ⟨⟨fun _ => ⟨hknown, row, hlogin row hrow hpass, rfl, rfl⟩, ?_⟩, inOrder_of_ready fun resp hresp => ?_⟩
    · rintro (hc | hc) <;> cases hc
    · obtain ⟨hmark, hs⟩ := hrest resp hresp
      exact ⟨fun hc => absurd hc hmark, fun _ => .inl (.inr ⟨_, mem_singleton_self _, rfl, hs.symm⟩)⟩

end

open ServerSystem

variable {ι : Type} [DecidableEq ι] {cfg : Config} {parse : String → Option Json} {o : Oracle} {req : RequestSlot}
  {store : Store} {root : Json} {row : Credential} {m : Sessions} {logins logins' : List (String × Credential)}
  {M : Set String} {σ : System ι}

theorem loginOf_of_accepted (h : Accepted parse req store.deadSessions root)
    (hcat : categorizeMessage (deserializeMessage root).msgType = .authRequest)
    (hrow : store.credentials.find? (loginFields (deserializeMessage root)).1 = some row)
    (hpass : row.passwordHash = (loginFields (deserializeMessage root)).2) : loginOf parse req store = some row := by
  have hgo : ¬ (req.isDisconnect = true ∨ (req.sessionId ≠ "" ∧ req.sessionId ∈ store.deadSessions) ∨
      req.isBlacklisted = true) := by
    rintro (hc | hd | hb)
    · exact Bool.false_ne_true (h.connected.symm.trans hc)
    · exact h.alive hd
    · exact Bool.false_ne_true (h.welcome.symm.trans hb)
  rw [loginOf, if_neg hgo, h.parsed]
  simp only [Option.bind_some, hcat, if_true, hrow, Option.filter_some, hpass, decide_true]

theorem inOrder_processRequest (h : Traced logins m req)
    (hlogin : ∀ row, loginOf parse req store = some row → (req.sessionId, row) ∈ logins') :
    InOrder logins' m M ((processRequest cfg parse o req store).1.getD []) := by
  rcases processRequest_cases cfg parse o req store with hc | ⟨-, -, he⟩ | ⟨root, hroot, he⟩
  · rw [processRequest, if_pos hc]
    trivial
  · rw [he]
    trivial
  · rw [he]
    by_cases hcat : categorizeMessage (deserializeMessage root).msgType = .authRequest
    · rw [handleMessage, hcat]
      exact inOrder_handleAuthRequest h.known fun row hrow hpass =>
        hlogin row (loginOf_of_accepted hroot hcat hrow hpass)
    · have hs := (h.proven (.inl (hroot.authorized.resolve_left hcat))).1
      exact inOrder_of_ready (forall_handleMessage (fun hauth => absurd hauth hcat)
        (fun _ => ready_of_settled (by rintro ⟨⟩) hs) (ready_of_settled (by rintro ⟨⟩) hs) fun _ => ready_slotOf hs)

theorem inOrder_generateAck (h : Traced logins m req) (stamp : String) :
    InOrder logins m M (generateAck parse stamp req).toList :=
  inOrder_of_ready (forall_generateAck fun hauth _ => ready_of_settled nofun (h.proven (.inl hauth)).1)

def Held (logins : List (String × Credential)) (m : Sessions) (M : Set String) : Phase → Prop
  | .idle => True
  | .taken _ req => Traced logins m req
  | .acknowledged _ req => Traced logins m req
  | .pushing responses => InOrder logins m M responses

theorem Held.mono {m' : Sessions} {M' : Set String} {phase : Phase} (h : Held logins m M phase) (hg : Grows m m')
    (hsub : logins ⊆ logins') (hM : ∀ s ∈ M, s ∈ M' ∨ Settled m' s) : Held logins' m' M' phase := by
  cases phase with
  | idle => trivial
  | taken position req | acknowledged position req => exact Traced.mono h hg hsub
  | pushing responses => exact InOrder.mono h hg hsub hM

structure Trusted (σ : System ι) : Prop where
  clean : Clean σ.logins σ.reactor
  queue : InOrder σ.logins σ.reactor.sessions ∅ σ.responses
  threads : ∀ i, Held σ.logins σ.reactor.sessions (marks σ.responses) (σ.threads i)

omit [DecidableEq ι] in
theorem Trusted.reactor (h : Trusted σ) (e : Event) : Trusted { σ with reactor := e.apply cfg σ.reactor } := by
  have hg : Grows σ.reactor.sessions (e.apply cfg σ.reactor).sessions :=
    grows_of_evolves (does_event e).evolves
  refine ⟨h.clean.event e, h.queue.mono hg (Subset.refl _) fun _ hs => .inl hs, fun i => ?_⟩
  exact (h.threads i).mono hg (Subset.refl _) fun _ hs => .inl hs

theorem settled_of_dispatch {r : Reactor} {now : Nat} {resp : Slot} (hc : resp.command = .markAuthenticated)
    (hknown : Known r.sessions resp.sessionId) : Settled (dispatchResponse now r resp).sessions resp.sessionId := by
  refine ⟨hknown.mono (grows_of_evolves (does_dispatch resp).evolves), fun n info _ hinfo => ?_⟩
  rw [dispatchResponse, if_neg fun hd => hd.2.1 hc, hc] at hinfo
  rw [find?_markAuthenticated, if_pos rfl] at hinfo
  obtain ⟨-, -, rfl⟩ := Option.map_eq_some_iff.mp hinfo
  rfl

omit [DecidableEq ι] in
theorem Trusted.dispatch (h : Trusted σ) {resp : Slot} {rest : List Slot} (hq : σ.responses = resp :: rest) (now : Nat)
    (acknowledged : List Sent) : Trusted { σ with
      reactor := dispatchResponse now σ.reactor resp, responses := rest, acknowledged := acknowledged } := by
  obtain ⟨hready, hrest⟩ : InOrder σ.logins σ.reactor.sessions ∅ (resp :: rest) := hq ▸ h.queue
  have hg : Grows σ.reactor.sessions (dispatchResponse now σ.reactor resp).sessions :=
    grows_of_evolves (does_dispatch resp).evolves
  have hmarked : ∀ s ∈ marks [resp], Settled (dispatchResponse now σ.reactor resp).sessions s := by
    rintro s ⟨x, hx, hc, rfl⟩
    cases mem_singleton.mp hx
    exact settled_of_dispatch hc (hready.mark hc).1
  constructor
  · refine h.clean.dispatch ⟨hready.mark, fun hc => ?_⟩
    exact (hready.frame hc).resolve_left (Set.notMem_empty _)
  · apply hrest.mono hg (Subset.refl _)
    rintro s (hs | hs)
    · exact absurd hs (Set.notMem_empty s)
    · exact .inr (hmarked s hs)
  · intro i
    apply (h.threads i).mono hg (Subset.refl _)
    intro s hs
    rw [hq, ← singleton_append, marks_append] at hs
    rcases hs with hs | hs
    · exact .inr (hmarked s hs)
    · exact .inl hs

theorem Trusted.thread (h : Trusted σ) (i : ι) {σ' : System ι} {phase : Phase}
    (hsessions : σ'.reactor.sessions = σ.reactor.sessions) (hclean : Clean σ'.logins σ'.reactor)
    (hlogins : σ.logins ⊆ σ'.logins) {more : List Slot} (hresponses : σ'.responses = σ.responses ++ more)
    (hmore : InOrder σ'.logins σ.reactor.sessions (marks σ.responses) more)
    (hthreads : σ'.threads = Function.update σ.threads i phase)
    (hphase : Held σ'.logins σ.reactor.sessions (marks σ'.responses) phase) : Trusted σ' := by
  have hsub : ∀ s ∈ marks σ.responses, s ∈ marks σ'.responses ∨ Settled σ.reactor.sessions s := by
    intro s hs
    rw [hresponses, marks_append]
    exact .inl (.inl hs)
  refine ⟨hclean, ?_, fun j => ?_⟩
  · rw [hsessions, hresponses]
    apply (h.queue.mono (.refl _) hlogins fun _ hs => .inl hs).append
    rwa [Set.empty_union]
  · rw [hsessions, hthreads]
    by_cases hj : j = i
    · rw [hj, Function.update_self]
      exact hphase
    · rw [Function.update_of_ne hj]
      exact (h.threads j).mono (.refl _) hlogins hsub

theorem Trusted.apply (h : Trusted σ) (action : Action ι) : Trusted (action.apply cfg parse σ) := by
  cases action with
  | reactor e => exact h.reactor e
  | dispatch now =>
    simp only [Action.apply]
    split
    · exact h
    · next resp rest hq => exact h.dispatch hq now _
  | take i =>
    simp only [Action.apply]
    split
    · next req _ _ hreq =>
      have hclean : Clean σ.logins (takeRequest σ.reactor) :=
        ⟨h.clean.table, h.clean.requests, h.clean.timers, h.clean.posted, h.clean.sent⟩
      exact h.thread i rfl hclean (Subset.refl _) (append_nil _).symm trivial rfl
        (h.clean.requests req (mem_of_getElem? hreq))
    · exact h
  | acknowledge i stamp =>
    simp only [Action.apply]
    split
    · next position req _ hi =>
      have hreq : Traced σ.logins σ.reactor.sessions req := by
        have hheld := h.threads i
        rwa [hi] at hheld
      exact h.thread i rfl h.clean (Subset.refl _) rfl (inOrder_generateAck hreq stamp) rfl hreq
    · exact h
  | process i o =>
    simp only [Action.apply]
    split
    · next position req _ hi =>
      have hreq : Traced σ.logins σ.reactor.sessions req := by
        have hheld := h.threads i
        rwa [hi] at hheld
      have hsub : σ.logins ⊆ σ.logins ++ ((loginOf parse req σ.store).map fun row => (req.sessionId, row)).toList :=
        subset_append_left _ _
      split
      · refine ⟨h.clean.mono hsub, ?_, fun j => ?_⟩
        · exact h.queue.mono (.refl _) hsub fun _ hs => .inl hs
        · exact (h.threads j).mono (.refl _) hsub fun _ hs => .inl hs
      · next responses hdone =>
        refine h.thread i rfl (h.clean.mono hsub) hsub (append_nil _).symm trivial rfl ?_
        change InOrder _ σ.reactor.sessions (marks σ.responses) ((some responses).getD [])
        rw [← hdone]
        apply inOrder_processRequest hreq
        intro row hrow
        rw [hrow]
        exact mem_append_right σ.logins (mem_singleton_self _)
    · exact h
  | push i =>
    simp only [Action.apply]
    split
    · exact h.thread i rfl h.clean (Subset.refl _) (append_nil _).symm trivial rfl trivial
    · next resp rest _ hi =>
      have hheld := h.threads i
      rw [hi] at hheld
      refine h.thread i rfl h.clean (Subset.refl _) rfl ⟨hheld.1, trivial⟩ rfl ?_
      rw [marks_append]
      exact hheld.2
    · exact h

omit [DecidableEq ι] in
theorem trusted_start (store : Store) : Trusted (ServerSystem.start store : System ι) := by
  refine ⟨⟨⟨sound_start, ?_⟩, ?_, ?_, ?_, ?_⟩, trivial, fun _ => trivial⟩
  · intro s info hinfo
    cases hinfo
  · exact fun _ h => absurd h not_mem_nil
  · intro k e he
    cases he
  · exact fun _ h => absurd h not_mem_nil
  · exact fun _ h => absurd h not_mem_nil

theorem Trusted.run (h : Trusted σ) (actions : List (Action ι)) : Trusted (ServerSystem.run cfg parse σ actions) := by
  induction actions generalizing σ with
  | nil => exact h
  | cons action actions ih => exact ih (h.apply action)

end Logistics.Trust
