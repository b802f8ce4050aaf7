import Logistics.PendingPasses
import Logistics.SentOrders
import Logistics.SystemTrust

namespace Logistics.StrandedOrders

open JsonManager Database Deserialize Worker ServerSystem List
open SessionManager hiding run start
open Server hiding start
open RetryTimers hiding run
open OrderCommits (Committed)

variable {ι : Type} [DecidableEq ι] {cfg : Config} {parse : String → Option Json} {σ σ' : System ι} {id : Nat}
  {client : String} {action : Action ι} {t : TransactionRow}

/-- Where the dispatch order of a transaction is: in the response ring, with the
worker thread that is about to write it there, on its way to the client with a
retry timer, or acknowledged. -/
inductive Carried (cfg : Config) (σ : System ι) (id : Nat) (client : String) : Prop
  | queued {resp : Slot} (hresp : resp ∈ σ.responses) (hslot : IsSlot cfg id client resp)
  | held {i : ι} {l : List Slot} {resp : Slot} (hrunning : σ.running = true) (hi : σ.threads i = .pushing l)
      (hresp : resp ∈ l) (hslot : IsSlot cfg id client resp)
  | sent {w : Waiting} (h : SentOut σ.reactor id client w)
  | acknowledged {x : Sent} (hx : x ∈ σ.acknowledged) (horder : Carries id x.data)
      (hfrom : x.info.username = safeStrcpy credentialsSize client)

/-- No ASSIGNED transaction is without its order. -/
def Tracked (cfg : Config) (σ : System ι) : Prop :=
  ∀ t ∈ σ.store.db.transactions.rows, t.status = .assigned →
    ∃ source, t.sourceId = some source ∧ Carried cfg σ t.transactionId source

/-- The step loses no order of an ASSIGNED transaction: a session that waits for
one with a retry timer is not ended or taken over, the timer is not taken for
another message, an order that is dispatched finds its client, and the worker does
not die with one in its hands. -/
def Spares (cfg : Config) (parse : String → Option Json) (σ : System ι) : Action ι → Prop
  | .reactor e => ∀ id client w, Committed σ.store.db id client → SentOut σ.reactor id client w →
      EventSpares σ.reactor w e
  | .dispatch _ => ∀ resp rest id client, σ.responses = resp :: rest → Committed σ.store.db id client →
      (IsSlot cfg id client resp →
        (findSessionByUsername σ.reactor.sessions (safeStrcpy credentialsSize client)).isSome) ∧
      ∀ w, SentOut σ.reactor id client w → SlotSpares σ.reactor w resp
  | .process i o => ∀ position req, σ.threads i = .acknowledged position req →
      UncaughtUpdate parse o req σ.store.deadSessions → ∀ id client j l, Committed σ.store.db id client →
        σ.threads j = .pushing l → ∀ resp ∈ l, ¬ IsSlot cfg id client resp
  | _ => True

theorem Carried.thread (h : Carried cfg σ id client) (i : ι) {phase : Phase}
    (hreactor : ∀ w, SentOut σ.reactor id client w → SentOut σ'.reactor id client w)
    (hresponses : σ.responses ⊆ σ'.responses) (hrunning : σ'.running = σ.running)
    (hthreads : σ'.threads = Function.update σ.threads i phase) (hacknowledged : σ'.acknowledged = σ.acknowledged)
    (hheld : ∀ l resp, σ.threads i = .pushing l → resp ∈ l →
      resp ∈ σ'.responses ∨ ∃ l', phase = .pushing l' ∧ resp ∈ l') : Carried cfg σ' id client := by
  cases h with
  | queued hresp hslot => exact .queued (hresponses hresp) hslot
  | @held j l resp hrun hj hresp hslot =>
    by_cases hij : j = i
    · rcases hheld l resp (hij ▸ hj) hresp with hpushed | ⟨l', rfl, hstays⟩
      · exact .queued hpushed hslot
      · refine .held (hrunning.trans hrun) (i := i) ?_ hstays hslot
        rw [hthreads, Function.update_self]
    · refine .held (hrunning.trans hrun) (i := j) ?_ hresp hslot
      rw [hthreads, Function.update_of_ne hij, hj]
  | sent h => exact .sent (hreactor _ h)
  | acknowledged hx horder hfrom => exact .acknowledged (hacknowledged ▸ hx) horder hfrom

theorem Carried.apply (h : Carried cfg σ id client) (hack : 0 < cfg.ackTimeout) (hs : Sound σ.reactor.sessions)
    (hm : Matched σ.reactor.timers) (hc : Committed σ.store.db id client) (hspares : Spares cfg parse σ action) :
    Carried cfg (action.apply cfg parse σ) id client := by
  cases action with
  | reactor e =>
    cases h with
    | queued hresp hslot => exact .queued hresp hslot
    | held hrunning hi hresp hslot => exact .held hrunning hi hresp hslot
    | sent h => exact .sent (h.event hs hm e (hspares id client _ hc h))
    | acknowledged hx horder hfrom => exact .acknowledged hx horder hfrom
  | dispatch now =>
    simp only [Action.apply]
    split
    · exact h
    next resp rest hq =>
    obtain ⟨hfound, hkeeps⟩ := hspares resp rest id client hq hc
    cases h with
    | queued hresp hslot =>
      rcases mem_cons.mp (hq ▸ hresp) with rfl | hrest
      · obtain ⟨w, hw⟩ := hslot.dispatch hs hack (hfound hslot)
        exact .sent hw
      · exact .queued hrest hslot
    | held hrunning hi hresp hslot => exact .held hrunning hi hresp hslot
    | sent h =>
      rcases h.dispatch (hkeeps _ h) with h | ⟨x, hx, horder, hfrom⟩
      · exact .sent h
      · refine .acknowledged (mem_append_right _ ?_) horder hfrom
        rw [hx]
        exact mem_singleton_self x
    | acknowledged hx horder hfrom => exact .acknowledged (mem_append_left _ hx) horder hfrom
  | take i =>
    simp only [Action.apply]
    split
    · next hi _ =>
      refine h.thread i (fun w hw => ?_) (Subset.refl _) rfl rfl rfl fun l _ hl _ => ?_
      · exact hw.keep (Subset.refl _) hw.live hw.pending
      · cases hi.symm.trans hl
    · exact h
  | acknowledge i stamp =>
    simp only [Action.apply]
    split
    · next hi =>
      refine h.thread i (fun _ hw => hw) (subset_append_left _ _) rfl rfl rfl fun l _ hl _ => ?_
      cases hi.symm.trans hl
    · exact h
  | process i o =>
    simp only [Action.apply]
    split
    · next position req _ hi =>
      split
      · next hdone =>
        have hlost := hspares position req hi ((processRequest_eq_none cfg).mp hdone) id client
        cases h with
        | queued hresp hslot => exact .queued hresp hslot
        | held _ hj hresp hslot => exact absurd hslot (hlost _ _ hc hj _ hresp)
        | sent h => exact .sent h
        | acknowledged hx horder hfrom => exact .acknowledged hx horder hfrom
      · refine h.thread i (fun _ hw => hw) (Subset.refl _) rfl rfl rfl fun l _ hl _ => ?_
        cases hi.symm.trans hl
    · exact h
  | push i =>
    simp only [Action.apply]
    split
    · next hi =>
      refine h.thread i (fun _ hw => hw) (Subset.refl _) rfl rfl rfl fun l _ hl hresp => ?_
      cases hi.symm.trans hl
      cases hresp
    · next resp rest _ hi =>
      refine h.thread i (fun _ hw => hw) (subset_append_left _ _) rfl rfl rfl fun l x hl hresp => ?_
      cases hi.symm.trans hl
      rcases mem_cons.mp hresp with rfl | hrest
      · exact .inl (mem_append_right _ (mem_singleton_self _))
      · exact .inr ⟨rest, rfl, hrest⟩
    · exact h

theorem assigned_apply (ht : t ∈ (action.apply cfg parse σ).store.db.transactions.rows) (hst : t.status = .assigned) :
    t ∈ σ.store.db.transactions.rows ∨
      ∃ source, t.sourceId = some source ∧ Carried cfg (action.apply cfg parse σ) t.transactionId source := by
  cases action with
  | reactor e => exact .inl ht
  | process i o =>
    simp only [Action.apply] at ht ⊢
    split at ht
    · next position req hrunning hi =>
      have hrow : t ∈ (processRequest cfg parse o req σ.store).2.db.transactions.rows := by
        split at ht <;> exact ht
      refine (emits_processRequest cfg parse o req σ.store hrow hst).imp_right ?_
      rintro ⟨source, hsource, resp, hresp, hslot⟩
      refine ⟨source, hsource, ?_⟩
      split
      · next hdone =>
        rw [hdone] at hresp
        cases hresp
      · next responses hdone =>
        rw [hdone] at hresp
        exact .held hrunning (i := i) (Function.update_self _ _ _) hresp hslot
    · exact .inl ht
  | dispatch | take | acknowledge | push =>
    simp only [Action.apply] at ht
    split at ht <;> exact .inl ht

theorem Tracked.apply (h : Tracked cfg σ) (hack : 0 < cfg.ackTimeout) (hs : Sound σ.reactor.sessions)
    (hm : Matched σ.reactor.timers) (hspares : Spares cfg parse σ action) : Tracked cfg (action.apply cfg parse σ) := by
  intro t ht hst
  rcases assigned_apply ht hst with ht | hnew
  · obtain ⟨source, hsource, hcarried⟩ := h t ht hst
    exact ⟨source, hsource, hcarried.apply hack hs hm ⟨t, ht, rfl, hst, hsource⟩ hspares⟩
  · exact hnew

theorem matched_apply (h : Matched σ.reactor.timers) (action : Action ι) :
    Matched (action.apply cfg parse σ).reactor.timers := by
  cases action with
  | reactor e => exact h.event e
  | dispatch now =>
    simp only [Action.apply]
    split
    · exact h
    · exact h.dispatch _
  | process i o =>
    simp only [Action.apply]
    split
    · split <;> exact h
    · exact h
  | take | acknowledge | push =>
    simp only [Action.apply]
    split <;> exact h

theorem matched_run (h : Matched σ.reactor.timers) (actions : List (Action ι)) :
    Matched (run cfg parse σ actions).reactor.timers := by
  induction actions generalizing σ with
  | nil => exact h
  | cons action actions ih => exact ih (matched_apply h action)

open KeyedTable Scenario
open TimerManager hiding start

def logInJson (msgType role username : String) : Json :=
  .object [("msg_type", .string msgType), ("source_role", .string role), ("source_id", .string username),
    ("timestamp", .string "2026-01-01"),
    ("payload", .object [("username", .string username), ("password", .string "secret")])]

def stockRequest : Json :=
  .object [("msg_type", .string "HUB_TO_SERVER__STOCK_REQUEST"), ("source_role", .string "HUB"),
    ("source_id", .string "h1"), ("timestamp", .string "2026-01-03"),
    ("payload", .object [("items", .array [.object [("item_id", .number 1), ("quantity", .number 4)]])])]

def texts : String → Option Json
  | "warehouse" => some (logInJson "WAREHOUSE_TO_SERVER__AUTH_REQUEST" "WAREHOUSE" "w1")
  | "hub" => some (logInJson "HUB_TO_SERVER__AUTH_REQUEST" "HUB" "h1")
  | _ => some stockRequest

def stockedWarehouse : Store where
  db := handled (itemsMessage .warehouseToServerInventoryUpdate warehouse "w1" "2026-01-01" (oneItem 1 10)) emptyDb
  credentials := (Table.empty.put ⟨"w1", "secret", warehouse, false⟩).put ⟨"h1", "secret", hub, false⟩
  deadSessions := ∅

def logIn (i : Fin 3) (s text : String) : List (Action (Fin 3)) :=
  [.reactor .accept, .reactor (.frame s text), .take i, .acknowledge i "2026-01-02", .process i plainOracle, .push i,
    .dispatch 0]

def request (i : Fin 3) (s : String) : List (Action (Fin 3)) :=
  [.reactor (.frame s "request"), .take i, .acknowledge i "2026-01-03", .process i plainOracle, .push i, .dispatch 0,
    .dispatch 0]

def bothConnected : List (Action (Fin 3)) :=
  logIn 0 "tcp_session_1" "warehouse" ++ logIn 1 "tcp_session_2" "hub" ++ request 2 "tcp_session_2"

omit [DecidableEq ι] in
theorem not_sentOut {id : Nat} {client : String} {w : Waiting} (h : σ.reactor.timers.entries.rows.isEmpty) :
    ¬ SentOut σ.reactor id client w := by
  intro hsent
  obtain ⟨e, he, -⟩ := hsent.pending
  have hmem := (Table.find?_eq_some.mp he).1
  rw [isEmpty_iff.mp h] at hmem
  cases hmem

def plainStep (σ : System ι) (action : Action ι) : Bool :=
  σ.store.db.transactions.rows.isEmpty ||
    match action with
    | .push _ => true
    | .dispatch _ => σ.reactor.timers.entries.rows.isEmpty && σ.responses.head?.all fun resp =>
      resp.sessionId ≠ "" || (findSessionByUsername σ.reactor.sessions resp.targetUsername).isSome
    | _ => false

omit [DecidableEq ι] in
theorem spares_of_plainStep {action : Action ι} (h : plainStep σ action = true) : Spares cfg parse σ action := by
  rcases Bool.or_eq_true_iff.mp h with hrows | hstep
  · have hnone : ∀ id client, ¬ Committed σ.store.db id client := by
      rintro id client ⟨t, ht, -⟩
      rw [isEmpty_iff.mp hrows] at ht
      cases ht
    cases action with
    | reactor e => exact fun id client _ hc => absurd hc (hnone id client)
    | dispatch now => exact fun _ _ id client _ hc => absurd hc (hnone id client)
    | process i o => exact fun _ _ _ _ id client _ _ hc => absurd hc (hnone id client)
    | take | acknowledge | push => trivial
  · cases action with
    | push i => trivial
    | dispatch now =>
      obtain ⟨htimers, hhead⟩ := Bool.and_eq_true_iff.mp hstep
      intro resp rest id client hq _
      refine ⟨fun hslot => ?_, fun w hw => absurd hw (not_sentOut htimers)⟩
      obtain ⟨-, hsession, htarget, -⟩ := hslot.fields
      rw [hq] at hhead
      simpa [hsession, htarget] using hhead
    | reactor | take | acknowledge | process => cases hstep

def plainRun (cfg : Config) (parse : String → Option Json) : System ι → List (Action ι) → Bool
  | _, [] => true
  | σ, action :: actions => plainStep σ action && plainRun cfg parse (action.apply cfg parse σ) actions

theorem spares_of_plainRun {actions : List (Action ι)} (h : plainRun cfg parse σ actions = true) : ∀ before action,
    before ++ [action] <+: actions → Spares cfg parse (run cfg parse σ before) action := by
  induction actions generalizing σ with
  | nil => exact fun before action hpre => absurd (prefix_nil.mp hpre) (by simp)
  | cons a actions ih =>
    obtain ⟨hstep, hrest⟩ := Bool.and_eq_true_iff.mp h
    intro before action hpre
    cases before with
    | nil =>
      obtain ⟨rfl, -⟩ := cons_prefix_cons.mp hpre
      exact spares_of_plainStep hstep
    | cons b before =>
      obtain ⟨rfl, htail⟩ := cons_prefix_cons.mp hpre
      exact ih hrest before action htail

def pushed : Phase → List Slot
  | .pushing l => l
  | _ => []

omit [DecidableEq ι] in
/-- An ASSIGNED transaction whose order is nowhere: all slots that are left are for
sessions by id, and there are no timers and no acknowledgments. -/
theorem not_tracked (h : (∃ t ∈ σ.store.db.transactions.rows, t.status = .assigned) ∧
    (∀ resp ∈ σ.responses, resp.sessionId ≠ "") ∧ (∀ i, ∀ resp ∈ pushed (σ.threads i), resp.sessionId ≠ "") ∧
    σ.reactor.timers.entries.rows.isEmpty ∧ σ.acknowledged.isEmpty) : ¬ Tracked cfg σ := by
  obtain ⟨⟨t, ht, hst⟩, hresponses, hpushed, htimers, hacknowledged⟩ := h
  intro h
  obtain ⟨source, -, hcarried⟩ := h t ht hst
  cases hcarried with
  | queued hresp hslot => exact hresponses _ hresp hslot.fields.2.1
  | @held i l resp _ hi hresp hslot =>
    refine hpushed i resp ?_ hslot.fields.2.1
    rw [hi]
    exact hresp
  | sent h => exact not_sentOut htimers h
  | acknowledged hx =>
    rw [isEmpty_iff.mp hacknowledged] at hx
    cases hx

def warehouseOffline : List (Action (Fin 3)) := logIn 0 "tcp_session_1" "hub" ++ request 1 "tcp_session_1"

end Logistics.StrandedOrders
