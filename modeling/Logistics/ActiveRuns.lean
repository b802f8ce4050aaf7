import Logistics.ActiveFlags
import Logistics.Authority
import Logistics.DeadSessions
import Logistics.Isolation

namespace Logistics.ActiveFlags

open List Function
open KeyedTable Ipc JsonManager Deserialize MessageHandler AuthModule SessionManager TimerManager Worker Server
open ServerSystem Trust Isolation Reachability Scenario

variable {ι : Type} [DecidableEq ι] {cfg : Config} {parse : String → Option Json} {o : Oracle} {req : RequestSlot}
  {store : Store} {σ σ' : System ι} {i : ι} {u : String} {row : Credential}

def Plain (resp : Slot) : Prop := resp.command ≠ .markAuthenticated ∧ resp.command ≠ .blacklist

theorem plain_slotOf {sessionId : String} {msg : Message} {command : ApiGateway.Command} {db : Database.Db} :
    ∀ r ∈ (handleOtherMessage o sessionId msg command db).1.getD [], Plain (slotOf cfg r) := by
  refine (handles_handleOtherMessage ..).forall_sent ?_ ?_ ?_ ?_ ?_ ?_ ?_
  all_goals
    intros
    constructor <;> rintro ⟨⟩

theorem plain_handleMessage {root : Json} (h : categorizeMessage (deserializeMessage root).msgType ≠ .authRequest) :
    (handleMessage cfg o root req store).2.credentials = store.credentials ∧
      ∀ resp ∈ (handleMessage cfg o root req store).1.getD [], Plain resp := by
  constructor
  · rw [handleMessage]
    split <;> first | rfl | next he => exact absurd he h
  · refine forall_handleMessage (fun he => absurd he h) (fun _ => ?_) ?_ fun _ => plain_slotOf
    all_goals constructor <;> rintro ⟨⟩

theorem polite_processRequest :
    ∀ resp ∈ (processRequest cfg parse o req store).1.getD [], resp.command ≠ .blacklist := by
  refine forall_processRequest fun root => forall_handleMessage (fun _ => forall_handleAuthRequest ?_ ?_ ?_ ?_) ?_ ?_
    fun _ r hr => (plain_slotOf r hr).2
  all_goals
    intros
    rintro ⟨⟩

def Passive (store : Store) (done : Option (List Slot) × Store) : Prop :=
  done.2.credentials = store.credentials ∧ marksOf (done.1.getD []) = []

def LogsIn (store : Store) (row : Credential) (done : Option (List Slot) × Store) : Prop :=
  (∃ responses, done.1 = some responses ∧ marksOf responses = [safeStrcpy credentialsSize row.username]) ∧
    store.credentials.find? row.username = some row ∧
    done.2.credentials = store.credentials.update row.username (fun r => { r with isActive := true }) fun _ => rfl

theorem passive_handleMessage {root : Json} (h : categorizeMessage (deserializeMessage root).msgType ≠ .authRequest) :
    Passive store (handleMessage cfg o root req store) :=
  ⟨(plain_handleMessage h).1, marksOf_eq_nil fun resp hresp => ((plain_handleMessage h).2 resp hresp).1⟩

theorem processRequest_of_no_login (hc : req.isDisconnect = false) (hlogin : loginOf parse req store = none) :
    Passive store (processRequest cfg parse o req store) := by
  rcases processRequest_cases cfg parse o req store with h | ⟨-, -, he⟩ | ⟨root, hroot, he⟩
  · exact absurd (hc.symm.trans h) Bool.false_ne_true
  · rw [he]
    exact ⟨rfl, rfl⟩
  · rw [he]
    by_cases hcat : categorizeMessage (deserializeMessage root).msgType = .authRequest
    · have hnot : ¬ Valid store.credentials (loginFields (deserializeMessage root)).1
          (loginFields (deserializeMessage root)).2 := by
        rintro ⟨row, hrow, hpass⟩
        rw [loginOf_of_accepted hroot hcat hrow hpass] at hlogin
        cases hlogin
      rw [handleMessage, hcat]
      refine ⟨congrArg Store.credentials (handleAuthRequest_of_not_valid hnot).1, marksOf_eq_nil fun resp hresp => ?_⟩
      obtain ⟨_, _, _, _, _, -, -, rfl⟩ := (handleAuthRequest_of_not_valid hnot).2 resp hresp
      rintro ⟨⟩
    · exact passive_handleMessage hcat

theorem setClientActive_of_no_fault (hne : u ≠ "") (active : Bool) (c : Credentials) :
    (perform none (setClientActive u active) c).2 = c.update u (fun r => { r with isActive := active }) fun _ => rfl := by
  rw [setClientActive, if_neg hne]
  rfl

def Answered (parse : String → Option Json) (req : RequestSlot) : Prop :=
  ∀ root, parse req.rawJson = some root → (getAuthResponseType (deserializeMessage root).sourceRole).isSome = true

theorem handleAuthRequest_ne_nil {msg : Message} (h : (getAuthResponseType msg.sourceRole).isSome = true) :
    (handleAuthRequest cfg o msg req store).1 ≠ [] := by
  obtain ⟨t, ht⟩ := Option.isSome_iff_exists.mp h
  simp only [handleAuthRequest, createAuthResponseMessage, ht, Option.map_some]
  split <;> simp

theorem processRequest_of_login (hlogin : loginOf parse req store = some row) (hrole : Answered parse req)
    (hfault : (o.attempt 1).fault = none) (hne : row.username ≠ "") :
    Passive store (processRequest cfg parse o req store) ∨ LogsIn store row (processRequest cfg parse o req store) := by
  rcases processRequest_cases cfg parse o req store with hc | ⟨-, -, he⟩ | ⟨root, hroot, he⟩
  · rw [loginOf, if_pos (.inl hc)] at hlogin
    cases hlogin
  · exact .inl (by rw [he]; exact ⟨rfl, rfl⟩)
  rw [he]
  by_cases hcat : categorizeMessage (deserializeMessage root).msgType = .authRequest
  · rw [handleMessage, hcat]
    rcases handleAuthRequest_cases cfg o (deserializeMessage root) req store with h | ⟨response, -, h⟩ |
      ⟨row', rest, hrow, hpass, h, hrest⟩
    · exact absurd h (handleAuthRequest_ne_nil (hrole root hroot.parsed))
    · refine .inl ?_
      simp only [Passive, Prod.map_fst, Prod.map_snd, h]
      exact ⟨rfl, rfl⟩
    · have hrow' : row' = row := Option.some.inj ((loginOf_of_accepted hroot hcat hrow hpass).symm.trans hlogin)
      subst hrow'
      have hname : row'.username = (loginFields (deserializeMessage root)).1 := (Table.find?_eq_some.mp hrow).2
      refine .inr ⟨⟨(handleAuthRequest cfg o (deserializeMessage root) req store).1, rfl, ?_⟩, hname ▸ hrow, ?_⟩
      · rw [h, ← singleton_append, marksOf_append, marksOf_eq_nil fun resp hresp => (hrest resp hresp).1]
        rfl
      · change (handleAuthRequest cfg o (deserializeMessage root) req store).2.credentials = _
        rw [Authority.handleAuthRequest_credentials]
        rcases authenticate_eq (fun n => (o.attempt n).fault) (loginFields (deserializeMessage root)).1
          (loginFields (deserializeMessage root)).2 store.credentials with hauth | ⟨_, -, -, hauth⟩
        · rw [handleAuthRequest, hauth] at h
          split at h <;> cases h
        · rw [hauth, ← hname, hfault]
          exact setClientActive_of_no_fault hne true store.credentials
  · exact .inl (passive_handleMessage hcat)

/-- The conditions on a step. A login: setting the flag does not fail, the user has a name that a slot holds, and the
role in the message gets an answer. A disconnect: clearing the flag does not fail, and the user has no other session
that is logged in, and no login still to be marked. A mark: the session is still there, not blacklisted, and nobody
else has logged in to it. Otherwise: the ring has room for what the reactor may report. -/
def Regular (parse : String → Option Json) (σ : System ι) : Action ι → Prop
  | .reactor e => Room (Event.load σ.reactor e) σ.reactor
  | .dispatch _ => ∀ resp rest, σ.responses = resp :: rest →
      if resp.command = .markAuthenticated then
        ∃ info, getSessionInfo σ.reactor.sessions resp.sessionId = some info ∧
          (info.username = "" ∨ info.username = resp.username) ∧ info.isBlacklisted = false
      else Room 1 σ.reactor
  | .process i o => ∀ position req, σ.threads i = .acknowledged position req →
      (req.isDisconnect = true → (o.attempt 0).fault = none ∧ req.username ∉ (view σ).marked ∧
        ¬ Online σ.reactor.sessions req.username) ∧
      ∀ row, loginOf parse req σ.store = some row →
        (o.attempt 1).fault = none ∧ row.username ≠ "" ∧ Fits row.username ∧ Answered parse req
  | .take _ | .acknowledge .. | .push _ => True

theorem Inv.dispatch (h : Inv σ) {now : Nat} (hregular : Regular parse σ (.dispatch now)) :
    Inv (Action.apply cfg parse σ (.dispatch now)) := by
  simp only [Action.apply]
  split
  · exact h
  next resp rest hq =>
  have hr := hregular resp rest hq
  have hpolite : resp.command ≠ .blacklist := h.polite resp (.inl (by rw [hq]; exact mem_cons_self))
  have hsound : Sound (dispatchResponse now σ.reactor resp).sessions := (does_dispatch resp).evolves.sound h.sound
  have hrest : ∀ resp', (resp' ∈ rest ∨ ∃ i, resp' ∈ out (σ.threads i)) → resp'.command ≠ .blacklist := by
    intro resp' hresp'
    refine h.polite resp' (hresp'.imp_left fun hmem => ?_)
    rw [hq]
    exact mem_cons_of_mem _ hmem
  by_cases hc : resp.command = .markAuthenticated
  · rw [if_pos hc] at hr
    obtain ⟨info, hinfo, hfree, hwelcome⟩ := hr
    have hmarks : marksOf σ.responses = resp.username :: marksOf rest := by
      rw [hq, marksOf, filter_cons_of_pos (by simpa using hc)]
      rfl
    have hdispatch : dispatchResponse now σ.reactor resp = { σ.reactor with
        sessions := markAuthenticated σ.reactor.sessions resp.sessionId resp.clientType resp.username } := by
      rw [dispatchResponse, if_neg fun hd => hd.2.1 hc, hc]
    rw [hdispatch] at hsound ⊢
    refine ⟨hsound, h.taken, hrest, ?_⟩
    refine h.agrees.mark (u := resp.username) (.inl ?_) hinfo hfree hwelcome resp.clientType ?_ ?_
    · rw [hmarks]
      exact mem_cons_self
    · rintro w (hw | hw)
      · exact .inl (hmarks ▸ mem_cons_of_mem _ hw)
      · exact .inr hw
    · rintro w (hw | hw)
      · rw [hmarks] at hw
        rcases mem_cons.mp hw with hw | hw
        · exact .inr hw
        · exact .inl (.inl hw)
      · exact .inl (.inr hw)
  · rw [if_neg hc] at hr
    have hmarks : marksOf σ.responses = marksOf rest := by
      rw [hq, marksOf, filter_cons_of_neg (by simpa using hc)]
      rfl
    have hrest' : Inv { σ with responses := rest } := by
      refine ⟨h.sound, h.taken, hrest, ?_⟩
      have hview : view { σ with responses := rest } = view σ := by
        refine view_eq rfl rfl (fun u => ?_) fun _ _ => Iff.rfl
        change (u ∈ marksOf rest ∨ _) ↔ (u ∈ marksOf σ.responses ∨ _)
        rw [hmarks]
      rw [hview]
      exact h.agrees
    have hcloses : Closes σ.reactor (dispatchResponse now σ.reactor resp) := closes_dispatch hr hpolite hc
    have hreactor := hrest'.reactor hcloses hsound
    exact ⟨hreactor.sound, hreactor.taken, hreactor.polite, hreactor.agrees⟩

theorem Inv.take (h : Inv σ) (i : ι) : Inv (Action.apply cfg parse σ (.take i)) := by
  simp only [Action.apply]
  split
  · next req _ hi hreq =>
    have hlt : σ.reactor.taken < σ.reactor.requests.length := (List.getElem?_eq_some_iff.mp hreq).1
    have hdrop : σ.reactor.requests.drop σ.reactor.taken = req :: σ.reactor.requests.drop (σ.reactor.taken + 1) := by
      rw [drop_eq_getElem_cons hlt, (List.getElem?_eq_some_iff.mp hreq).2]
    refine h.move _ i (.taken σ.reactor.taken req) [] rfl hlt rfl (append_nil _).symm rfl ?_
      (forall_mem_nil _) fun req' _ => ?_
    · rw [hi]
      rfl
    · rw [pending_update rfl, pending_iff i, hi, hdrop]
      simp only [takeRequest, hand, mem_cons, not_mem_nil, or_false, false_or]
      rw [or_left_comm, or_assoc]
  · exact h

theorem Inv.acknowledge (h : Inv σ) (i : ι) (stamp : String) :
    Inv (Action.apply cfg parse σ (.acknowledge i stamp)) := by
  simp only [Action.apply]
  split
  · next position req _ hi =>
    have hplain : ∀ resp ∈ (generateAck parse stamp req).toList, Plain resp := by
      refine forall_generateAck fun _ _ => ?_
      constructor <;> rintro ⟨⟩
    refine h.move _ i (.acknowledged position req) (generateAck parse stamp req).toList rfl h.taken rfl rfl rfl ?_ ?_
      fun req' _ => ?_
    · rw [hi, marksOf_eq_nil fun resp hresp => (hplain resp hresp).1]
      rfl
    · change ∀ resp ∈ _ ++ [], _
      rw [append_nil]
      exact fun resp hresp => (hplain resp hresp).2
    · rw [pending_update rfl, pending_iff i, hi]
      rfl
  · exact h

theorem Inv.push (h : Inv σ) (i : ι) : Inv (Action.apply cfg parse σ (.push i)) := by
  simp only [Action.apply]
  split
  · next hi =>
    refine h.move _ i .idle [] rfl h.taken rfl (append_nil _).symm rfl ?_ (forall_mem_nil _) fun req' _ => ?_
    · rw [hi]
      rfl
    · rw [pending_update rfl, pending_iff i, hi]
      rfl
  · next resp rest _ hi =>
    refine h.move _ i (.pushing rest) [resp] rfl h.taken rfl rfl rfl ?_ (fun resp' hresp' => ?_) fun req' _ => ?_
    · rw [hi, ← marksOf_append]
      rfl
    · refine h.polite resp' (.inr ⟨i, ?_⟩)
      rw [hi]
      exact hresp'
    · rw [pending_update rfl, pending_iff i, hi]
      rfl
  · exact h

theorem active_update (c : Credentials) (active : Bool) (w : String) :
    Active (c.update u (fun r => { r with isActive := active }) fun _ => rfl) w ↔
      if w = u then active = true ∧ (c.find? u).isSome = true else Active c w := by
  rw [Active, Table.find?_update]
  split
  · next he =>
    subst he
    cases c.find? w with
    | none => simp
    | some row => simp
  · rfl

variable {position : Nat}

theorem Inv.handled (h : Inv σ) (hi : σ.threads i = .acknowledged position req) (hc : req.isDisconnect = false)
    {done : Option (List Slot) × Store} (hpassive : Passive σ.store done)
    (hpolite : ∀ resp ∈ done.1.getD [], resp.command ≠ .blacklist) {phase : Phase}
    (hphase : phase = .acknowledged position req ∨ ∃ responses, phase = .pushing responses ∧ done.1 = some responses)
    (hreactor : σ'.reactor = σ.reactor) (hresponses : σ'.responses = σ.responses) (hstore : σ'.store = done.2)
    (hthreads : σ'.threads = update σ.threads i phase) : Inv σ' := by
  obtain ⟨hsame, hmarks⟩ := hpassive
  rw [← hstore] at hsame
  refine h.move σ' i phase [] (congrArg Reactor.sessions hreactor) (hreactor ▸ h.taken) hsame
    (hresponses.trans (append_nil _).symm) hthreads ?_ ?_ fun req' hreq' => ?_
  · rcases hphase with rfl | ⟨responses, rfl, hdone⟩
    · rw [hi]
      rfl
    · rw [hdone] at hmarks
      rw [hi]
      exact hmarks.symm
  · rcases hphase with rfl | ⟨responses, rfl, hdone⟩
    · exact forall_mem_nil _
    · rw [hdone] at hpolite
      exact hpolite
  · have hne : req' ≠ req := by
      rintro rfl
      exact Bool.false_ne_true (hc.symm.trans hreq')
    rw [pending_update hthreads, pending_iff i, hi, hreactor]
    rcases hphase with rfl | ⟨responses, rfl, hdone⟩
    · rfl
    · simp only [hand, mem_singleton, hne, not_mem_nil]

variable {responses : List Slot}

theorem Inv.disconnect (h : Inv σ) (hi : σ.threads i = .acknowledged position req)
    (hmarked : req.username ∉ (view σ).marked) (honline : ¬ Online σ.reactor.sessions req.username)
    (hreactor : σ'.reactor = σ.reactor) (hresponses : σ'.responses = σ.responses)
    (hthreads : σ'.threads = update σ.threads i (.pushing []))
    (hactive : ∀ w, Active σ'.store.credentials w ↔ Active σ.store.credentials w ∧ w ≠ req.username) : Inv σ' := by
  have hout : out (σ.threads i) = [] := by
    rw [hi]
    rfl
  refine h.of_update (congrArg Reactor.sessions hreactor) (hreactor ▸ h.taken) (hresponses.trans (append_nil _).symm)
    hthreads (forall_mem_nil _) ?_
  have hpending (req' : RequestSlot) : Pending σ' req' ↔ req' ∈ σ.reactor.requests.drop σ.reactor.taken ∨
      ∃ j, j ≠ i ∧ req' ∈ hand (σ.threads j) := by
    rw [pending_update hthreads, hreactor]
    simp only [hand, not_mem_nil, false_or]
  have hpending' (req' : RequestSlot) : Pending σ req' ↔ Pending σ' req' ∨ req' = req := by
    have hself : req' ∈ hand (.acknowledged position req) ↔ req' = req := mem_singleton
    rw [hpending, pending_iff i, hi, hself, or_assoc]
    exact or_congr_right or_comm
  have hview : view σ' = ⟨(view σ).sessions, (view σ).active \ {req.username}, (view σ).marked, (view σ').leaving⟩ := by
    rw [View.mk.injEq]
    refine ⟨congrArg Reactor.sessions hreactor, Set.ext hactive, Set.ext fun u => ?_, rfl⟩
    rw [mem_marked_update hthreads, mem_marked_iff i, hresponses, hout]
    rfl
  rw [hview]
  refine h.agrees.leave hmarked honline ?_
  rintro w ⟨req', hp, hd, rfl⟩
  rcases (hpending' req').mp hp with hp | rfl
  · exact .inl ⟨req', hp, hd, rfl⟩
  · exact .inr rfl

theorem Inv.login (h : Inv σ) (hi : σ.threads i = .acknowledged position req) (hc : req.isDisconnect = false)
    (hne : u ≠ "") (hfits : Fits u) (hpolite : ∀ resp ∈ responses, resp.command ≠ .blacklist)
    (hmarks : marksOf responses = [u]) (hreactor : σ'.reactor = σ.reactor) (hresponses : σ'.responses = σ.responses)
    (hthreads : σ'.threads = update σ.threads i (.pushing responses))
    (hactive : ∀ w, Active σ'.store.credentials w ↔ w = u ∨ Active σ.store.credentials w) : Inv σ' := by
  have hout : out (σ.threads i) = [] := by
    rw [hi]
    rfl
  refine h.of_update (congrArg Reactor.sessions hreactor) (hreactor ▸ h.taken) (hresponses.trans (append_nil _).symm)
    hthreads hpolite ?_
  have hview : view σ' = ⟨(view σ).sessions, insert u (view σ).active, insert u (view σ).marked, (view σ).leaving⟩ := by
    rw [View.mk.injEq]
    refine ⟨congrArg Reactor.sessions hreactor, Set.ext hactive, Set.ext fun w => ?_, Set.ext fun w => ?_⟩
    · rw [mem_marked_update hthreads, Set.mem_insert_iff, mem_marked_iff i, hresponses, hout, out, hmarks,
        mem_singleton]
      simp only [marksOf, filter_nil, map_nil, not_mem_nil, false_or]
      rw [or_left_comm]
    · refine exists_congr fun req' => and_congr_left fun hreq' => ?_
      have hreq : req' ≠ req := by
        rintro rfl
        exact Bool.false_ne_true (hc.symm.trans hreq'.1)
      rw [pending_update hthreads, pending_iff i, hi, hreactor]
      simp only [hand, mem_singleton, hreq, not_mem_nil]
  rw [hview]
  exact h.agrees.login hne hfits

theorem Inv.process (h : Inv σ) {i : ι} {o : Oracle} (hregular : Regular parse σ (.process i o)) :
    Inv (Action.apply cfg parse σ (.process i o)) := by
  simp only [Action.apply]
  split
  swap
  · exact h
  next position req _ hi =>
  obtain ⟨hdisconnect, hlogin⟩ := hregular position req hi
  by_cases hc : req.isDisconnect = true
  · obtain ⟨hfault, hmarked, honline⟩ := hdisconnect hc
    have hnone : (processRequest cfg parse o req σ.store).1 = some [] := by rw [processRequest, if_pos hc]
    rw [hnone]
    refine h.disconnect hi hmarked honline rfl rfl rfl fun w => ?_
    rw [processRequest, if_pos hc]
    by_cases hempty : req.username = ""
    · rw [if_pos hempty, hempty]
      exact ⟨fun hw => ⟨hw, (h.agrees.active w hw).1⟩, And.left⟩
    · simp only [if_neg hempty, deactivateClient, hfault, setClientActive_of_no_fault hempty]
      rw [active_update]
      by_cases hw : w = req.username
      · simp [hw]
      · simp [hw]
  rw [Bool.not_eq_true] at hc
  have hpolite : ∀ resp ∈ (processRequest cfg parse o req σ.store).1.getD [], resp.command ≠ .blacklist :=
    polite_processRequest
  have hcases : Passive σ.store (processRequest cfg parse o req σ.store) ∨ ∃ row, row.username ≠ "" ∧
      Fits row.username ∧ LogsIn σ.store row (processRequest cfg parse o req σ.store) := by
    cases hrow : loginOf parse req σ.store with
    | none => exact .inl (processRequest_of_no_login hc hrow)
    | some row =>
      obtain ⟨hfault, hne, hfits, hrole⟩ := hlogin row hrow
      exact (processRequest_of_login hrow hrole hfault hne).imp_right fun hdone => ⟨row, hne, hfits, hdone⟩
  rcases hcases with hpassive | ⟨row, hne, hfits, ⟨responses, hresponses, hmarks⟩, hfind, hcredentials⟩
  · split
    · refine h.handled hi hc hpassive hpolite (.inl rfl) rfl rfl rfl ?_
      rw [← hi, update_eq_self]
    · next responses hdone => exact h.handled hi hc hpassive hpolite (.inr ⟨responses, rfl, hdone⟩) rfl rfl rfl rfl
  · rw [hresponses] at hpolite ⊢
    refine h.login hi hc hne hfits hpolite (hmarks.trans (congrArg (fun w => [w]) hfits)) rfl rfl rfl fun w => ?_
    rw [hcredentials, active_update]
    by_cases hw : w = row.username
    · simp [hw, hfind]
    · simp [hw]

theorem Inv.apply (h : Inv σ) {action : Action ι} (hregular : Regular parse σ action) :
    Inv (action.apply cfg parse σ) := by
  cases action with
  | reactor e => exact h.reactor (closes_event h.sound e hregular) ((does_event e).evolves.sound h.sound)
  | dispatch now => exact h.dispatch hregular
  | take i => exact h.take i
  | acknowledge i stamp => exact h.acknowledge i stamp
  | process i o => exact h.process hregular
  | push i => exact h.push i

def resetAllClientsInactive (c : Credentials) : Credentials :=
  ⟨c.rows.map fun row => { row with isActive := false }, by
    rw [map_map]
    exact c.nodup⟩

def launch (store : Store) : System ι :=
  ServerSystem.start { store with credentials := resetAllClientsInactive store.credentials }

theorem not_active_resetAllClientsInactive (c : Credentials) (u : String) : ¬ Active (resetAllClientsInactive c) u := by
  rintro ⟨row, hrow, hactive⟩
  obtain ⟨old, -, rfl⟩ := mem_map.mp (Table.find?_eq_some.mp hrow).1
  cases hactive

omit [DecidableEq ι] in
theorem inv_launch (store : Store) : Inv (launch store : System ι) := by
  have hactive (u : String) : u ∉ (view (launch store : System ι)).active :=
    not_active_resetAllClientsInactive store.credentials u
  refine ⟨sound_start, Nat.le_refl _, ?_, ⟨?_, ?_, ?_, fun u hu => absurd hu (hactive u)⟩⟩
  · rintro resp (hresp | ⟨i, hresp⟩) <;> cases hresp
  · rintro s info ⟨⟩
  · rintro u (hu | ⟨i, hu⟩) <;> cases hu
  · rintro u ⟨s, info, ⟨⟩, -⟩

structure Quiet (σ : System ι) : Prop where
  requests : σ.reactor.requests.length ≤ σ.reactor.taken
  responses : σ.responses = []
  threads : ∀ i, σ.threads i = .idle

omit [DecidableEq ι] in
theorem Quiet.not_marked (h : Quiet σ) (u : String) : u ∉ (view σ).marked := by
  rintro (hu | ⟨i, hu⟩)
  · rw [h.responses] at hu
    cases hu
  · rw [h.threads i] at hu
    cases hu

omit [DecidableEq ι] in
theorem Quiet.not_leaving (h : Quiet σ) (u : String) : u ∉ (view σ).leaving := by
  rintro ⟨req, hmem | ⟨i, hmem⟩, -⟩
  · rw [drop_eq_nil_of_le h.requests] at hmem
    cases hmem
  · rw [h.threads i] at hmem
    cases hmem

/-- The active flag of a user is set exactly when some session of the table is
authenticated as the user and not blacklisted, at every quiet moment of a run whose
steps are regular. -/
theorem active_iff_session (cfg : Config) (parse : String → Option Json) (store : Store) (actions : List (Action ι))
    (hregular : Along (Action.apply cfg parse) (Regular parse) (launch store) actions)
    (hquiet : Quiet (ServerSystem.run cfg parse (launch store) actions)) (u : String) (row : Credential)
    (hrow : (ServerSystem.run cfg parse (launch store) actions).store.credentials.find? u = some row) :
    row.isActive = true ↔ ∃ s info, getSessionInfo
      (ServerSystem.run cfg parse (launch store) actions).reactor.sessions s = some info ∧ Eligible u info := by
  have hinv : Inv (ServerSystem.run cfg parse (launch store) actions) :=
    hregular.invariant (fun _ _ h hr => h.apply hr) (inv_launch store)
  constructor
  · intro hactive
    rcases (hinv.agrees.active u ⟨row, hrow, hactive⟩).2 with hmarked | honline | hleaving
    · exact absurd hmarked (hquiet.not_marked u)
    · exact honline
    · exact absurd hleaving (hquiet.not_leaving u)
  · rintro ⟨s, info, hinfo, heligible⟩
    obtain ⟨row', hrow', hactive⟩ := hinv.agrees.online u ⟨s, info, hinfo, heligible⟩
    rwa [Option.some.inj (hrow.symm.trans hrow')]

def cliLogin : Json :=
  .object [("msg_type", .string "CLI_TO_SERVER__AUTH_REQUEST"), ("source_role", .string "CLI"),
    ("source_id", .string "c1"), ("timestamp", .string "2026-01-01"),
    ("payload", .object [("username", .string "c1"), ("password", .string "secret")])]

def oneCli : Store := { emptyStore with credentials := Table.empty.put ⟨"c1", "secret", "CLI", true⟩ }

def logsIn (s : String) : List (Action Unit) :=
  [.reactor (.frame s ""), .take (), .acknowledge () "2026-01-02", .process () plainOracle, .push (), .push (),
    .push (),
    .dispatch 0, .dispatch 0]

def bothIn : List (Action Unit) :=
  .reactor .accept :: logsIn "tcp_session_1" ++ .reactor .accept :: logsIn "tcp_session_2"

def told : List (Action Unit) := [.take (), .acknowledge () "2026-01-03", .process () plainOracle, .push ()]

def server (actions : List (Action Unit)) : System Unit :=
  ServerSystem.run ⟨5, 3, 30⟩ (fun _ => some cliLogin) (launch oneCli) actions

theorem second_session_inactive : Quiet (server (bothIn ++ .reactor (.hangup "tcp_session_1") :: told)) ∧
    (server (bothIn ++ .reactor (.hangup "tcp_session_1") :: told)).store.credentials.find? "c1" =
      some ⟨"c1", "secret", "CLI", false⟩ ∧
    ∃ info, getSessionInfo (server (bothIn ++ .reactor (.hangup "tcp_session_1") :: told)).reactor.sessions
      "tcp_session_2" = some info ∧ Eligible "c1" info :=
  ⟨⟨by decide +kernel, rfl, fun _ => rfl⟩, rfl, _, rfl, by decide⟩

theorem regular_bothIn : Along (Action.apply ⟨5, 3, 30⟩ fun _ => some cliLogin)
    (Regular fun _ => some cliLogin) (launch oneCli) bothIn := by
  have hroom {n : Nat} {r : Reactor} (h : decide (Room n r) = true) : Room n r := of_decide_eq_true h
  have hlogin {req : RequestSlot} {row : Credential} (hname : "c1" = row.username) :
      (plainOracle.attempt 1).fault = none ∧ row.username ≠ "" ∧ Fits row.username ∧
        Answered (fun _ => some cliLogin) req := by
    rw [← hname]
    exact ⟨rfl, by decide, rfl, fun root hroot => by cases hroot; rfl⟩
  refine ⟨hroom rfl, hroom rfl, trivial, trivial, ?_, trivial, trivial, trivial, ?_, ?_, hroom rfl, hroom rfl, trivial,
    trivial, ?_, trivial, trivial, trivial, ?_, ?_, trivial⟩
  iterate 2
    · rintro position req ⟨⟩
      exact ⟨fun hc => absurd hc (by decide), fun row hrow => hlogin (by cases hrow; rfl)⟩
    · rintro resp rest ⟨⟩
      exact ⟨_, rfl, .inl rfl, rfl⟩
    · rintro resp rest ⟨⟩
      exact hroom rfl

def bothOut : List (Action Unit) :=
  .reactor (.hangup "tcp_session_1") :: .reactor (.hangup "tcp_session_2") :: (told ++ told)

theorem regular_bothOut : Along (Action.apply ⟨5, 3, 30⟩ fun _ => some cliLogin)
    (Regular fun _ => some cliLogin) (server bothIn) bothOut := by
  have hroom {n : Nat} {r : Reactor} (h : decide (Room n r) = true) : Room n r := of_decide_eq_true h
  refine ⟨hroom rfl, hroom rfl, trivial, trivial, ?_, trivial, trivial, trivial, ?_, trivial, trivial⟩
  all_goals
    rintro position req ⟨⟩
    refine ⟨fun _ => ⟨rfl, ?_, ?_⟩, fun row hrow => by cases hrow⟩
    · rintro (hu | ⟨i, hu⟩) <;> cases hu
    · rintro ⟨s, info, hinfo, -⟩
      cases hinfo

/-- Two sessions of one user, and then both of them end before the workers are told. -/
theorem both_sessions_active : (server bothIn).store.credentials.find? "c1" = some ⟨"c1", "secret", "CLI", true⟩ ∧
    (∃ s info, getSessionInfo (server bothIn).reactor.sessions s = some info ∧ Eligible "c1" info) ∧
    (server (bothIn ++ bothOut)).store.credentials.find? "c1" = some ⟨"c1", "secret", "CLI", false⟩ ∧
    ¬ ∃ s info, getSessionInfo (server (bothIn ++ bothOut)).reactor.sessions s = some info ∧ Eligible "c1" info := by
  have hin : (server bothIn).store.credentials.find? "c1" = some ⟨"c1", "secret", "CLI", true⟩ := rfl
  have hout : (server (bothIn ++ bothOut)).store.credentials.find? "c1" = some ⟨"c1", "secret", "CLI", false⟩ := rfl
  have hregular := along_append.mpr ⟨regular_bothIn, regular_bothOut⟩
  refine ⟨hin, ?_, hout, fun honline => ?_⟩
  · exact (active_iff_session ⟨5, 3, 30⟩ (fun _ => some cliLogin) oneCli bothIn regular_bothIn
      ⟨by decide +kernel, rfl, fun _ => rfl⟩ "c1" _ hin).mp rfl
  · exact absurd ((active_iff_session ⟨5, 3, 30⟩ (fun _ => some cliLogin) oneCli (bothIn ++ bothOut) hregular
      ⟨by decide +kernel, rfl, fun _ => rfl⟩ "c1" _ hout).mpr honline) (by decide)

end Logistics.ActiveFlags
