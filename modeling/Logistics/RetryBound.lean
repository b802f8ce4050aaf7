import Logistics.RetryTimers
import Logistics.SilentSessions

namespace Logistics.RetryBound

open KeyedTable JsonManager SessionManager TimerManager Worker Server Reachability List
open SilentSessions (Loop Move framesTo Terminated moves_apply run hubSession)
open RetryTimers (Waiting Arms restart find?_restart dispatchStarts batchStarts Matched)

variable {mine : Frame → Bool} {s v : String} {cfg : Config} {now : Nat} {r r' r'' : Reactor} {l : Loop}
  {w : Waiting} {maxRetries : Nat}

variable {c : Callback} {resp : Slot} {k : TimerKey}

section Others

/-- How often a message was put on the wire of a session, where `mine` tells its frames from
all others. -/
def copies (mine : Frame → Bool) (s : String) (r : Reactor) : Nat := (framesTo s r).countP fun f => mine f.data

def Carries (mine : Frame → Bool) (s : String) : Callback → Prop
  | .ackTimeout sessionId _ payload _ _ => sessionId = s ∧ mine payload = true
  | .keepaliveTimeout _ => False

structure Quiet (mine : Frame → Bool) (s : String) (r r' : Reactor) : Prop where
  copies : copies mine s r' = copies mine s r
  timers : ∀ k e, r'.timers.entries.find? k = some e → Carries mine s e.callback →
    r.timers.entries.find? k = some e
  posted : ∀ batch ∈ r'.posted, batch ∈ r.posted ∨ (s ∈ batch.targets → mine batch.resp.payload = false)

theorem Quiet.of_drops (h : OnlyDrops r r') : Quiet mine s r r' where
  copies := by rw [RetryBound.copies, framesTo, h.sent, RetryBound.copies, framesTo]
  timers k e he _ := h.timers k e he
  posted batch hbatch := .inl (h.posted ▸ hbatch)

theorem Quiet.refl (r : Reactor) : Quiet mine s r r := .of_drops (.refl r)

theorem Quiet.trans (h : Quiet mine s r r') (h' : Quiet mine s r' r'') : Quiet mine s r r'' where
  copies := h'.copies.trans h.copies
  timers k e he hc := h.timers k e (h'.timers k e he hc) hc
  posted batch hbatch := (h'.posted batch hbatch).elim (h.posted batch) .inr

theorem copies_sendToSession {info : SessionInfo} (hinfo : getSessionInfo r.sessions v = some info) (data : Frame) :
    copies mine s (sendToSession r v data) = copies mine s r + if v = s ∧ mine data = true then 1 else 0 := by
  have hid : info.sessionId = v := (Table.find?_eq_some.mp hinfo).2
  rw [sendToSession, hinfo]
  simp only [copies, framesTo, filter_append, countP_append, Nat.add_left_cancel_iff]
  by_cases hv : v = s
  · subst hv
    rw [filter_singleton, hid]
    simp
  · rw [filter_singleton, hid, decide_eq_false hv, if_neg fun h => hv h.1]
    rfl

theorem quiet_sendToSession {data : Frame} (h : v = s → mine data = false) :
    Quiet mine s r (sendToSession r v data) := by
  cases hinfo : getSessionInfo r.sessions v with
  | none =>
    have hsame : sendToSession r v data = r := by rw [sendToSession, hinfo]
    rw [hsame]
    exact .refl r
  | some info =>
    refine ⟨?_, fun k e he _ => by rwa [sendToSession_timers] at he, fun batch hbatch => .inl ?_⟩
    · rw [copies_sendToSession hinfo, if_neg, Nat.add_zero]
      rintro ⟨hv, hmine⟩
      rw [h hv] at hmine
      cases hmine
    · rwa [sendToSession, hinfo] at hbatch

theorem quiet_insertTimer {timeout : Nat} (hc : ¬ Carries mine s c) :
    Quiet mine s r { r with timers := insertTimer r.timers now k timeout c } := by
  refine ⟨rfl, fun k' e he hcarries => ?_, fun batch hbatch => .inl hbatch⟩
  rw [find?_insertTimer] at he
  split at he
  · cases he
    exact absurd hcarries hc
  · exact he

theorem quiet_startAckTimer {timerKey : String} {timeout retryCount maxRetries : Nat} {data : Frame}
    (h : v = s → mine data = false) :
    Quiet mine s r (Server.startAckTimer now r v timerKey timeout data retryCount maxRetries) := by
  apply quiet_insertTimer
  rintro ⟨hv, hmine⟩
  rw [h hv] at hmine
  cases hmine

def Passes (mine : Frame → Bool) (s : String) : Act → Prop
  | .send v data | .timed v _ data | .start v _ data => v = s → mine data = false
  | .post batch => s ∈ batch.targets → mine batch.resp.payload = false
  | _ => True

theorem Quiet.of_does {A : Reactor → Op → Prop} {P : Sessions → Act → Prop} (h : Does A P r r')
    (hP : ∀ m act, P m act → Passes mine s act) : Quiet mine s r r' := by
  induction h with
  | refl r => exact .refl r
  | drop ht => exact .of_drops ⟨rfl, ht, rfl⟩
  | send _ hact => exact quiet_sendToSession (hP _ _ hact)
  | timed now timeout retryCount maxRetries _ hact =>
    exact (quiet_sendToSession (hP _ _ hact)).trans (quiet_startAckTimer (hP _ _ hact))
  | start now timeout retryCount maxRetries hact => exact quiet_startAckTimer (hP _ _ hact)
  | keepalive => exact quiet_insertTimer id
  | post hact =>
    refine ⟨rfl, fun _ _ he _ => he, fun batch hbatch => ?_⟩
    exact (mem_append.mp hbatch).imp_right fun hnew => hP _ _ (hact batch hnew)
  | wake => exact ⟨rfl, fun _ _ he _ => he, fun _ hbatch => absurd hbatch not_mem_nil⟩
  | table => exact .of_drops (onlyDrops_sessions _)
  | request => exact .of_drops (onlyDrops_pushRequest _)
  | ended => exact .of_drops ((onlyDrops_notifyDisconnect _).trans (onlyDrops_sessions _))
  | trans _ _ ih ih' => exact ih.trans ih'

def retry (w : Waiting) (maxRetries retryCount : Nat) : Callback :=
  .ackTimeout w.sessionId w.timerKey w.payload retryCount maxRetries

theorem terminated_of_getSessionInfo {m : Sessions} (h : getSessionInfo m s = none) : Terminated m s := by
  intro info hinfo
  rw [getSessionInfo, hinfo] at h
  cases h

theorem terminated_removeSession (m : Sessions) (s : String) : Terminated (SessionManager.removeSession m s) s := by
  intro info hinfo
  rw [find?_removeSession, if_pos rfl] at hinfo
  cases hinfo

theorem terminated_blacklistSession (m : Sessions) (s : String) :
    Terminated (SessionManager.blacklistSession m s) s := by
  intro info hinfo
  rw [find?_blacklistSession, if_pos rfl] at hinfo
  obtain ⟨_, -, rfl⟩ := Option.map_eq_some_iff.mp hinfo
  rfl

theorem terminated_handleKeepaliveTimeout (r : Reactor) (s : String) :
    Terminated (handleKeepaliveTimeout r s).sessions s := by
  rw [handleKeepaliveTimeout]
  split
  · next hnone => exact terminated_of_getSessionInfo hnone
  · exact terminated_removeSession _ s

theorem fire_retry (cfg : Config) (now : Nat) (r : Reactor) (w : Waiting) (maxRetries retryCount : Nat) :
    getSessionInfo r.sessions w.sessionId = none ∧ fire cfg now r (retry w maxRetries retryCount) = r ∨
    lastRetry maxRetries ≤ retryCount ∧
    Terminated (fire cfg now r (retry w maxRetries retryCount)).sessions w.sessionId ∨
    (∃ info, getSessionInfo r.sessions w.sessionId = some info) ∧ retryCount < lastRetry maxRetries ∧
    fire cfg now r (retry w maxRetries retryCount) = Server.startAckTimer now (sendToSession r w.sessionId w.payload)
    w.sessionId w.timerKey cfg.ackTimeout w.payload (retryCount + 1) maxRetries := by
  rw [retry, fire, handleAckTimeout]
  cases hinfo : getSessionInfo r.sessions w.sessionId with
  | none => exact .inl ⟨rfl, rfl⟩
  | some info =>
    dsimp only
    by_cases hlast : lastRetry maxRetries ≤ retryCount
    · refine .inr (.inl ⟨hlast, ?_⟩)
      rw [if_pos hlast]
      split
      · exact terminated_removeSession _ _
      · exact terminated_blacklistSession _ _
    · exact .inr (.inr ⟨⟨info, rfl⟩, Nat.not_le.mp hlast, if_neg hlast⟩)

theorem quiet_fire (h : ∀ act, CallbackActs c act → Passes mine s act) : Quiet mine s r (fire cfg now r c) :=
  .of_does (does_fire (A := fun _ _ => False) (P := fun _ => CallbackActs c) fun _ hact => hact) fun _ => h

theorem passes_callback (hc : ¬ Carries mine s c) {act : Act} (hact : CallbackActs c act) : Passes mine s act := by
  cases hact with
  | resend => exact fun hv => Bool.eq_false_iff.mpr fun h => hc ⟨hv, h⟩
  | giveUp | silence => trivial

theorem passes_batch {batch : Batch} {act : Act} (h : s ∈ batch.targets → mine batch.resp.payload = false)
    (hact : batch.Acts act) : Passes mine s act := by
  obtain ⟨target, htarget, rfl | ⟨-, rfl⟩⟩ := hact <;> exact fun hs => h (hs ▸ htarget)

def Reaches (s : String) (m : Sessions) (resp : Slot) : Prop :=
  match resp.command with
  | .send => sendTarget m resp = some s
  | .startAckTimer => resp.sessionId = s
  | .broadcast => True
  | _ => False

theorem quiet_dispatchResponse (h : Reaches s r.sessions resp → mine resp.payload = false) :
    Quiet mine s r (dispatchResponse now r resp) := by
  refine .of_does (does_dispatch resp) ?_
  rintro _ act ⟨rfl, -, hact⟩
  rw [Reaches] at h
  cases hact with
  | send hc ht | timed hc ht | nobody hc ht =>
    rintro rfl
    rw [hc] at h
    exact h ht
  | start hc =>
    rw [hc] at h
    exact h
  | batch hc hact =>
    rw [hc] at h
    exact passes_batch (fun _ => h trivial) hact
  | post hc hbatch =>
    rw [hc] at h
    obtain ⟨k, -, rfl⟩ := mem_map.mp hbatch
    exact fun _ => h trivial
  | keepalive | ends => trivial

theorem quiet_event {e : Event} (hexpire : ∀ now, e ≠ .expire now)
    (h : ∀ batch ∈ r.posted, s ∈ batch.targets → mine batch.resp.payload = false) : Quiet mine s r (e.apply cfg r) := by
  refine .of_does (does_event e) fun m act hact => ?_
  cases e with
  | hangup v =>
    obtain ⟨rfl, -⟩ := hact
    trivial
  | expire now => exact absurd rfl (hexpire now)
  | wakeup now =>
    obtain ⟨-, rfl | ⟨batch, hbatch, hact⟩⟩ := hact
    · trivial
    · exact passes_batch (h batch hbatch) hact
  | accept | frame | datagram => exact hact.elim

end Others

variable {due : List Callback}

section Bound

structure Tracked (mine : Frame → Bool) (w : Waiting) (maxRetries : Nat) (l : Loop) : Prop where
  timers : ∀ k e, l.reactor.timers.entries.find? k = some e → Carries mine w.sessionId e.callback →
    k = w.key ∧ e.callback = retry w maxRetries (copies mine w.sessionId l.reactor - 1)
  due : ∀ c ∈ l.due, Carries mine w.sessionId c →
    c = retry w maxRetries (copies mine w.sessionId l.reactor - 1)
  once : l.due.Pairwise fun c c' => Carries mine w.sessionId c → ¬ Carries mine w.sessionId c'
  apart : ∀ c ∈ l.due, Carries mine w.sessionId c → ∀ k e, l.reactor.timers.entries.find? k = some e →
    ¬ Carries mine w.sessionId e.callback
  posted : ∀ batch ∈ l.reactor.posted, w.sessionId ∈ batch.targets → mine batch.resp.payload = false
  pos : 1 ≤ copies mine w.sessionId l.reactor
  le : copies mine w.sessionId l.reactor ≤ lastRetry maxRetries + 1

def Others (mine : Frame → Bool) (s : String) (l : Loop) : Move → Prop
  | .dispatch _ resp => Reaches s l.reactor.sessions resp → mine resp.payload = false
  | _ => True

theorem Tracked.quiet (h : Tracked mine w maxRetries l) (hq : Quiet mine w.sessionId l.reactor r)
    (hdue : due.Sublist l.due) : Tracked mine w maxRetries ⟨r, due⟩ where
  timers k e he hc := by
    rw [hq.copies]
    exact h.timers k e (hq.timers k e he hc) hc
  due c hc hcarries := by
    rw [hq.copies]
    exact h.due c (hdue.subset hc) hcarries
  once := h.once.sublist hdue
  apart c hc hcarries k e he hcarried := h.apart c (hdue.subset hc) hcarries k e (hq.timers k e he hcarried) hcarried
  posted batch hbatch hs := (hq.posted batch hbatch).elim (fun hold => h.posted batch hold hs) fun hnew => hnew hs
  pos := hq.copies ▸ h.pos
  le := hq.copies ▸ h.le

theorem Tracked.expire (h : Tracked mine w maxRetries l) (now : Nat) :
    Tracked mine w maxRetries ⟨{ l.reactor with timers := withoutDue l.reactor.timers now },
      (dueEntries l.reactor.timers now).map TimerEntry.callback⟩ where
  timers k e he := h.timers k e (find?_withoutDue.mp he).1
  due c hc hcarries := by
    obtain ⟨e, he, rfl⟩ := mem_map.mp hc
    exact (h.timers e.key e (find?_of_mem_dueEntries he) hcarries).2
  once := by
    have hkeys : (dueEntries l.reactor.timers now).Pairwise fun e e' => e.key ≠ e'.key :=
      pairwise_map.mp (nodup_dueEntries l.reactor.timers now)
    refine pairwise_map.mpr (hkeys.imp_of_mem fun {e e'} he he' hne hcarries hcarries' => hne ?_)
    have hkey := (h.timers e.key e (find?_of_mem_dueEntries he) hcarries).1
    have hkey' := (h.timers e'.key e' (find?_of_mem_dueEntries he') hcarries').1
    exact hkey.trans hkey'.symm
  apart c hc hcarries k e he hcarried := by
    obtain ⟨d, hd, rfl⟩ := mem_map.mp hc
    obtain ⟨he, hlate⟩ := find?_withoutDue.mp he
    have hd' := find?_of_mem_dueEntries hd
    rw [(h.timers d.key d hd' hcarries).1, ← (h.timers k e he hcarried).1, he] at hd'
    cases hd'
    exact absurd (mem_dueEntries.mp hd).2 hlate.not_ge
  posted := h.posted
  pos := h.pos
  le := h.le

theorem Tracked.fire {n : Nat} (h : Tracked mine w maxRetries ⟨r, retry w maxRetries n :: due⟩)
    (hmine : mine w.payload = true) : Tracked mine w maxRetries ⟨fire cfg now r (retry w maxRetries n), due⟩ := by
  have hcarries : Carries mine w.sessionId (retry w maxRetries n) := ⟨rfl, hmine⟩
  have hn : n = copies mine w.sessionId r - 1 :=
    (Callback.ackTimeout.inj (h.due _ mem_cons_self hcarries)).2.2.2.1
  rcases fire_retry cfg now r w maxRetries n with ⟨-, hfire⟩ | ⟨hlast, -⟩ | ⟨⟨info, hinfo⟩, hlt, hfire⟩
  · rw [hfire]
    exact h.quiet (.refl r) (sublist_cons_self _ due)
  · refine h.quiet (quiet_fire fun act hact => ?_) (sublist_cons_self _ due)
    cases hact with
    | resend hlt => exact absurd hlast hlt.not_ge
    | giveUp => trivial
  · have hcopies : copies mine w.sessionId (Server.fire cfg now r (retry w maxRetries n)) =
        copies mine w.sessionId r + 1 := by
      rw [hfire]
      exact (copies_sendToSession hinfo w.payload).trans (congrArg _ (if_pos ⟨rfl, hmine⟩))
    have hpos : 1 ≤ copies mine w.sessionId r := h.pos
    have hdue : ∀ c ∈ due, ¬ Carries mine w.sessionId c := fun c hc =>
      (pairwise_cons.mp h.once).1 c hc hcarries
    refine ⟨fun k e he hcarried => ?_, fun c hc hcarried => absurd hcarried (hdue c hc),
      (pairwise_cons.mp h.once).2, fun c hc hcarried => absurd hcarried (hdue c hc), ?_, ?_, ?_⟩
    · rw [hcopies]
      rw [hfire, Server.startAckTimer, TimerManager.startAckTimer, find?_insertTimer] at he
      split at he
      · next hk =>
        cases he
        refine ⟨hk, ?_⟩
        rw [Nat.add_sub_cancel, retry, hn, Nat.sub_add_cancel hpos]
      · rw [sendToSession_timers] at he
        exact absurd hcarried (h.apart _ mem_cons_self hcarries k e he)
    · intro batch hbatch
      refine h.posted batch ?_
      rw [hfire, sendToSession, hinfo] at hbatch
      exact hbatch
    · rw [hcopies]
      exact Nat.le_add_left 1 _
    · rw [hcopies]
      omega

theorem eq_retry_of_carries (h : Tracked mine w maxRetries l) (hc : c ∈ l.due) (hcarries : Carries mine w.sessionId c) :
    mine w.payload = true ∧ c = retry w maxRetries (copies mine w.sessionId l.reactor - 1) := by
  have he := h.due c hc hcarries
  rw [he] at hcarries
  exact ⟨hcarries.2, he⟩

theorem Tracked.move (h : Tracked mine w maxRetries l) {move : Move} (hothers : Others mine w.sessionId l move) :
    Tracked mine w maxRetries (move.apply cfg l) := by
  have hmoves := moves_apply cfg l move
  generalize move.apply cfg l = l' at hmoves ⊢
  cases hmoves with
  | blocked => exact h
  | expire now => exact h.expire now
  | event _ hne => exact h.quiet (quiet_event hne h.posted) (nil_sublist _)
  | dispatch now resp => exact h.quiet (quiet_dispatchResponse hothers) (nil_sublist _)
  | take =>
    have htake : OnlyDrops l.reactor (takeRequest l.reactor) := ⟨rfl, fun _ _ he => he, rfl⟩
    exact h.quiet (.of_drops htake) (Sublist.refl _)
  | @callback now c due hdue =>
    obtain ⟨r, _⟩ := l
    cases hdue
    by_cases hcarries : Carries mine w.sessionId c
    · obtain ⟨hmine, hc⟩ := eq_retry_of_carries h mem_cons_self hcarries
      rw [hc] at h ⊢
      exact h.fire hmine
    · exact h.quiet (quiet_fire fun _ => passes_callback hcarries) (sublist_cons_self c due)

end Bound

section Progress

def ackKey : Callback → Option TimerKey
  | .ackTimeout sessionId timerKey _ _ _ => some ⟨.ack, sessionId, timerKey⟩
  | .keepaliveTimeout _ => none

structure Awaits (mine : Frame → Bool) (w : Waiting) (l : Loop) : Prop where
  matched : Matched l.reactor.timers
  own : ∀ c ∈ l.due, ackKey c = some w.key → Carries mine w.sessionId c
  carried : (∃ e, l.reactor.timers.entries.find? w.key = some e ∧ Carries mine w.sessionId e.callback) ∨
    ∃ c ∈ l.due, Carries mine w.sessionId c

def LeavesTimer (w : Waiting) (l : Loop) : Move → Prop
  | .dispatch _ resp =>
    (resp.command = .cancelAckTimer → w.key ≠ ⟨.ack, resp.sessionId, resp.timerKey⟩) ∧
      (resp.command = .clearTimers → w.sessionId ≠ resp.sessionId) ∧
      ∀ x ∈ dispatchStarts l.reactor.sessions resp, w.key ≠ x.key
  | .event (.wakeup _) => ∀ x ∈ l.reactor.posted.flatMap (batchStarts l.reactor.sessions), w.key ≠ x.key
  | _ => True

theorem find?_arms {t t' : Timers} {starts : List Waiting} (h : Arms now t starts t')
    (hk : ∀ x ∈ starts, k ≠ x.key) : t'.entries.find? k = t.entries.find? k := by
  induction h with
  | nil t => rfl
  | cons x timeout retryCount maxRetries _ ih =>
    obtain ⟨hx, hk⟩ := forall_mem_cons.mp hk
    exact (ih hk).trans (find?_restart hx)

theorem find?_handleKeepaliveTimeout (hopen : ¬ Terminated (handleKeepaliveTimeout r v).sessions w.sessionId) :
    (handleKeepaliveTimeout r v).timers.entries.find? w.key = r.timers.entries.find? w.key := by
  rw [handleKeepaliveTimeout_timers, find?_clearSessionTimers, if_neg]
  rintro (rfl : w.sessionId = v)
  exact hopen (terminated_handleKeepaliveTimeout r w.sessionId)

theorem find?_fire (hc : ackKey c ≠ some w.key) (hopen : ¬ Terminated (fire cfg now r c).sessions w.sessionId) :
    (fire cfg now r c).timers.entries.find? w.key = r.timers.entries.find? w.key := by
  cases c with
  | keepaliveTimeout v => exact find?_handleKeepaliveTimeout hopen
  | ackTimeout v timerKey payload retryCount maxRetries =>
    have hterminated := fire_retry cfg now r ⟨v, timerKey, payload⟩ maxRetries retryCount
    rw [RetryTimers.fire_ackTimeout_timers ⟨v, timerKey, payload⟩]
    split
    · next hhas =>
      split
      · exact find?_restart fun hkey => hc (congrArg some hkey.symm)
      · next hlast =>
        rw [find?_clearSessionTimers, if_neg]
        rintro (rfl : w.sessionId = v)
        rcases hterminated with ⟨hnone, -⟩ | ⟨-, hend⟩ | ⟨-, hlt, -⟩
        · rw [hasSession, ← getSessionInfo, hnone] at hhas
          cases hhas
        · exact hopen hend
        · exact hlast hlt
    · rfl

theorem find?_dispatchResponse (h : LeavesTimer w l (.dispatch now resp))
    (hopen : ¬ Terminated (dispatchResponse now l.reactor resp).sessions w.sessionId) :
    (dispatchResponse now l.reactor resp).timers.entries.find? w.key = l.reactor.timers.entries.find? w.key := by
  obtain ⟨hcancel, hclear, hstarts⟩ := h
  rw [dispatchResponse] at hopen ⊢
  split
  · rfl
  · next hkept =>
    rw [if_neg hkept] at hopen
    cases hc : resp.command with
    | send => exact find?_arms (RetryTimers.arms_dispatchSend resp hc) hstarts
    | startAckTimer =>
      rw [dispatchStarts, hc] at hstarts
      exact find?_arms (RetryTimers.arms_startAckTimer ⟨_, _, _⟩ _ _ _) hstarts
    | cancelAckTimer => exact (find?_cancelTimer _ _).trans (if_neg (hcancel hc))
    | clearTimers => exact (find?_clearSessionTimers _ _).trans (if_neg (hclear hc))
    | startKeepaliveTimer =>
      refine (find?_startKeepaliveTimer _ _ _ _).trans (if_neg ?_)
      rintro ⟨⟩
    | resetKeepaliveTimer => exact find?_resetKeepaliveTimer _ _ rfl
    | disconnect =>
      rw [hc] at hopen
      exact find?_handleKeepaliveTimeout hopen
    | broadcast =>
      rw [dispatchStarts, hc] at hstarts
      exact find?_arms (RetryTimers.arms_sendBatch l.reactor.sessions rfl _) hstarts
    | blacklist | markAuthenticated | mqttPublishRoute => rfl

theorem matched_move (h : Matched l.reactor.timers) (move : Move) : Matched (move.apply cfg l).reactor.timers := by
  have hmoves := moves_apply cfg l move
  generalize move.apply cfg l = l' at hmoves ⊢
  cases hmoves with
  | blocked | take => exact h
  | expire now => exact h.withoutDue now
  | event => exact h.event _
  | callback => exact h.fire _
  | dispatch now resp => exact h.dispatch resp

theorem matched_run (cfg : Config) (moves : List Move) : Matched (run cfg moves).reactor.timers :=
  List.foldlRecOn (motive := fun l => Matched l.reactor.timers) moves (Move.apply cfg)
    RetryTimers.matched_start fun _ h move _ => matched_move h move

instance (mine : Frame → Bool) (s : String) : DecidablePred (Carries mine s)
  | .ackTimeout _ _ _ _ _ => inferInstanceAs (Decidable (_ ∧ _))
  | .keepaliveTimeout _ => inferInstanceAs (Decidable False)

def timesOut (mine : Frame → Bool) (s : String) (l : Loop) : Move → Bool
  | .callback _ => l.due.head?.any fun c => Carries mine s c
  | _ => false

def timeouts (cfg : Config) (mine : Frame → Bool) (s : String) : Loop → List Move → Nat
  | _, [] => 0
  | l, move :: moves => (if timesOut mine s l move then 1 else 0) + timeouts cfg mine s (move.apply cfg l) moves

theorem Awaits.of_find?_eq (h : Awaits mine w l) (hdue : l.due = []) (hmatched : Matched r.timers)
    (hfind : r.timers.entries.find? w.key = l.reactor.timers.entries.find? w.key) : Awaits mine w ⟨r, []⟩ := by
  refine ⟨hmatched, fun c hc => absurd hc not_mem_nil, .inl ?_⟩
  rcases h.carried with hcarried | ⟨c, hc, -⟩
  · rwa [← hfind] at hcarried
  · rw [hdue] at hc
    cases hc

theorem ackKey_eq_of_matches (h : RetryTimers.Matches k c) (hc : ackKey c = some w.key) : k = w.key := by
  obtain ⟨type, session, timestamp⟩ := k
  cases type with
  | ack =>
    obtain ⟨payload, retryCount, maxRetries, rfl⟩ := h
    exact Option.some.inj hc
  | keepalive =>
    rw [show c = .keepaliveTimeout session from h] at hc
    cases hc

theorem Awaits.expire (h : Awaits mine w l) (hdue : l.due = []) (now : Nat) :
    Awaits mine w ⟨{ l.reactor with timers := withoutDue l.reactor.timers now },
      (dueEntries l.reactor.timers now).map TimerEntry.callback⟩ := by
  rcases h.carried with ⟨e, he, hcarries⟩ | ⟨c, hc, -⟩
  · obtain ⟨hmem, -⟩ := Table.find?_eq_some.mp he
    refine ⟨h.matched.withoutDue now, fun c hc hown => ?_, ?_⟩
    · obtain ⟨d, hd, rfl⟩ := mem_map.mp hc
      have hd' := find?_of_mem_dueEntries hd
      rw [ackKey_eq_of_matches (h.matched d.key d hd') hown, he] at hd'
      cases hd'
      exact hcarries
    · by_cases hlate : e.deadline ≤ now
      · exact .inr ⟨e.callback, mem_map_of_mem (mem_dueEntries.mpr ⟨hmem, hlate⟩), hcarries⟩
      · exact .inl ⟨e, find?_withoutDue.mpr ⟨he, Nat.not_le.mp hlate⟩, hcarries⟩
  · rw [hdue] at hc
    cases hc

theorem Awaits.callback (h : Awaits mine w ⟨r, c :: due⟩) (htracked : Tracked mine w maxRetries ⟨r, c :: due⟩)
    (hopen : ¬ Terminated r.sessions w.sessionId) (hopen' : ¬ Terminated (fire cfg now r c).sessions w.sessionId) :
    Awaits mine w ⟨fire cfg now r c, due⟩ ∧ copies mine w.sessionId (fire cfg now r c) =
    copies mine w.sessionId r + if timesOut mine w.sessionId ⟨r, c :: due⟩ (.callback now) then 1 else 0 := by
  have hmatched : Matched (fire cfg now r c).timers := Matched.fire h.matched c
  have hown : ∀ c' ∈ due, ackKey c' = some w.key → Carries mine w.sessionId c' := fun c' hc' =>
    h.own c' (mem_cons_of_mem c hc')
  by_cases hcarries : Carries mine w.sessionId c
  · have hout : timesOut mine w.sessionId ⟨r, c :: due⟩ (.callback now) = true := decide_eq_true hcarries
    rw [if_pos hout]
    obtain ⟨hmine, hc⟩ := eq_retry_of_carries htracked mem_cons_self hcarries
    have hfires := fire_retry cfg now r w maxRetries (copies mine w.sessionId r - 1)
    rw [← hc] at hfires
    rcases hfires with ⟨hnone, -⟩ | ⟨-, hend⟩ | ⟨⟨info, hinfo⟩, -, hfire⟩
    · exact absurd (terminated_of_getSessionInfo hnone) hopen
    · exact absurd hend hopen'
    · refine ⟨⟨hmatched, hown, .inl ?_⟩, ?_⟩
      · dsimp only
        rw [hfire]
        exact ⟨_, (find?_insertTimer _ _ _ _ _).trans (if_pos rfl), rfl, hmine⟩
      · rw [hfire]
        exact (copies_sendToSession hinfo w.payload).trans (congrArg _ (if_pos ⟨rfl, hmine⟩))
  · have hout : timesOut mine w.sessionId ⟨r, c :: due⟩ (.callback now) = false := decide_eq_false hcarries
    rw [hout]
    refine ⟨⟨hmatched, hown, ?_⟩, (quiet_fire fun _ => passes_callback hcarries).copies⟩
    have hkey : ackKey c ≠ some w.key := fun hkey => hcarries (h.own c mem_cons_self hkey)
    rcases h.carried with ⟨e, he, hcarried⟩ | ⟨c', hc', hcarried⟩
    · exact .inl ⟨e, (find?_fire hkey hopen').trans he, hcarried⟩
    · rcases mem_cons.mp hc' with rfl | hc'
      · exact absurd hcarried hcarries
      · exact .inr ⟨c', hc', hcarried⟩

/-- As long as its session lives, each timeout of the message puts one more copy of it on
the wire, and nothing else does. -/
theorem Awaits.move (h : Awaits mine w l) (htracked : Tracked mine w maxRetries l) {move : Move}
    (hothers : Others mine w.sessionId l move) (hleaves : LeavesTimer w l move)
    (hopen : ¬ Terminated l.reactor.sessions w.sessionId)
    (hopen' : ¬ Terminated (move.apply cfg l).reactor.sessions w.sessionId) :
    Awaits mine w (move.apply cfg l) ∧ copies mine w.sessionId (move.apply cfg l).reactor =
      copies mine w.sessionId l.reactor + if timesOut mine w.sessionId l move then 1 else 0 := by
  have hmatched : Matched (move.apply cfg l).reactor.timers := matched_move h.matched move
  have hmoves := moves_apply cfg l move
  generalize move.apply cfg l = l' at hmoves hmatched hopen' ⊢
  cases hmoves with
  | blocked _ hblocked =>
    refine ⟨h, ?_⟩
    cases move with
    | callback now =>
      cases hdue : l.due with
      | nil => simp [timesOut, hdue]
      | cons c due => exact absurd hdue (hblocked now c due rfl)
    | _ => rfl
  | expire now hdue => exact ⟨h.expire hdue now, rfl⟩
  | @event e hdue hne =>
    refine ⟨h.of_find?_eq hdue hmatched ?_, (quiet_event hne htracked.posted).copies⟩
    by_cases hwakeup : ∃ now, e = .wakeup now
    · obtain ⟨now, rfl⟩ := hwakeup
      exact find?_arms RetryTimers.arms_onWakeup hleaves
    · rw [RetryTimers.event_timers _ hne fun now he => hwakeup ⟨now, he⟩]
  | callback now hdue =>
    obtain ⟨r, _⟩ := l
    cases hdue
    exact h.callback htracked hopen hopen'
  | dispatch now resp hdue =>
    exact ⟨h.of_find?_eq hdue hmatched (find?_dispatchResponse hleaves hopen'), (quiet_dispatchResponse hothers).copies⟩
  | take => exact ⟨⟨h.matched, h.own, h.carried⟩, rfl⟩

theorem Awaits.run (moves : List Move) (h : Awaits mine w l) (htracked : Tracked mine w maxRetries l)
    (hothers : Along (Move.apply cfg) (Others mine w.sessionId) l moves)
    (hleaves : Along (Move.apply cfg) (LeavesTimer w) l moves) :
    (∃ sofar, sofar <+: moves ∧ Terminated (sofar.foldl (Move.apply cfg) l).reactor.sessions w.sessionId) ∨
    Awaits mine w (moves.foldl (Move.apply cfg) l) ∧ copies mine w.sessionId (moves.foldl (Move.apply cfg) l).reactor =
    copies mine w.sessionId l.reactor + timeouts cfg mine w.sessionId l moves := by
  induction moves generalizing l with
  | nil => exact .inr ⟨h, rfl⟩
  | cons move moves ih =>
    by_cases hopen : Terminated l.reactor.sessions w.sessionId
    · exact .inl ⟨[], nil_prefix, hopen⟩
    by_cases hopen' : Terminated (move.apply cfg l).reactor.sessions w.sessionId
    · exact .inl ⟨[move], prefix_append [move] moves, hopen'⟩
    obtain ⟨h', hcopies⟩ := h.move htracked hothers.1 hleaves.1 hopen hopen'
    rcases ih h' (htracked.move hothers.1) hothers.2 hleaves.2 with ⟨sofar, hsofar, hend⟩ | ⟨hlast, hall⟩
    · exact .inl ⟨move :: sofar, cons_prefix_cons.mpr ⟨rfl, hsofar⟩, hend⟩
    · refine .inr ⟨hlast, hall.trans ?_⟩
      rw [hcopies, timeouts, Nat.add_assoc]

structure Launched (mine : Frame → Bool) (w : Waiting) (maxRetries : Nat) (l : Loop) : Prop where
  due : l.due = []
  sent : mine w.payload = true ∧ copies mine w.sessionId l.reactor = 1
  timer : ∃ e, l.reactor.timers.entries.find? w.key = some e ∧ e.callback = retry w maxRetries 0
  timers : ∀ k e, l.reactor.timers.entries.find? k = some e → Carries mine w.sessionId e.callback → k = w.key
  posted : ∀ batch ∈ l.reactor.posted, w.sessionId ∈ batch.targets → mine batch.resp.payload = false

theorem Launched.tracked (h : Launched mine w maxRetries l) : Tracked mine w maxRetries l := by
  obtain ⟨e, he, hretry⟩ := h.timer
  refine ⟨fun k d hd hcarries => ?_, ?_, ?_, ?_, h.posted, h.sent.2.ge, ?_⟩
  · have hk := h.timers k d hd hcarries
    rw [hk, he] at hd
    cases hd
    rw [h.sent.2]
    exact ⟨hk, hretry⟩
  · rw [h.due]
    exact fun c hc => absurd hc not_mem_nil
  · rw [h.due]
    exact Pairwise.nil
  · rw [h.due]
    exact fun c hc => absurd hc not_mem_nil
  · rw [h.sent.2]
    exact Nat.le_add_left 1 _

theorem Launched.awaits (h : Launched mine w maxRetries l) (hmatched : Matched l.reactor.timers) : Awaits mine w l := by
  obtain ⟨e, he, hretry⟩ := h.timer
  refine ⟨hmatched, ?_, .inl ⟨e, he, hretry ▸ ⟨rfl, h.sent.1⟩⟩⟩
  rw [h.due]
  exact fun c hc => absurd hc not_mem_nil

def Waits (w : Waiting) (maxRetries retryCount : Nat) (l : Loop) : Prop :=
  (∃ e, l.reactor.timers.entries.find? w.key = some e ∧ e.callback = retry w maxRetries retryCount) ∨
    retry w maxRetries retryCount ∈ l.due

theorem Awaits.waits (h : Awaits mine w l) (htracked : Tracked mine w maxRetries l) :
    Waits w maxRetries (copies mine w.sessionId l.reactor - 1) l := by
  rcases h.carried with ⟨e, he, hcarries⟩ | ⟨c, hc, hcarries⟩
  · exact .inl ⟨e, he, (htracked.timers _ e he hcarries).2⟩
  · exact .inr (htracked.due c hc hcarries ▸ hc)

theorem lastRetry_add_one (h : 1 ≤ maxRetries) (h32 : maxRetries < 2 ^ 32) :
    lastRetry maxRetries + 1 = max 1 maxRetries := by
  rw [lastRetry]
  omega

/-- With at least one retry configured a message is put on the wire at most that many
times, whatever the reactor does meanwhile; and a message that is not acknowledged
is sent again at each of its timeouts until its session is terminated, at the
latest by the last of them. -/
theorem unacknowledged_message_bounded (cfg : Config) (mine : Frame → Bool) (w : Waiting) (maxRetries : Nat)
    (hmax : 1 ≤ maxRetries) (h32 : maxRetries < 2 ^ 32) (before moves : List Move)
    (hlaunched : Launched mine w maxRetries (run cfg before))
    (hothers : Along (Move.apply cfg) (Others mine w.sessionId) (run cfg before) moves) :
    copies mine w.sessionId (run cfg (before ++ moves)).reactor ≤ max 1 maxRetries ∧
      (Along (Move.apply cfg) (LeavesTimer w) (run cfg before) moves → (∃ sofar, sofar <+: moves ∧
          Terminated (run cfg (before ++ sofar)).reactor.sessions w.sessionId) ∨
        timeouts cfg mine w.sessionId (run cfg before) moves < max 1 maxRetries ∧
          copies mine w.sessionId (run cfg (before ++ moves)).reactor =
            timeouts cfg mine w.sessionId (run cfg before) moves + 1 ∧
          Waits w maxRetries (timeouts cfg mine w.sessionId (run cfg before) moves) (run cfg (before ++ moves))) := by
  have hrun (more : List Move) : run cfg (before ++ more) =
      more.foldl (Move.apply cfg) (run cfg before) := foldl_append
  have htracked : Tracked mine w maxRetries (run cfg (before ++ moves)) := by
    rw [hrun]
    exact hothers.invariant (fun _ _ h hmove => h.move hmove) hlaunched.tracked
  have hle := htracked.le
  rw [lastRetry_add_one hmax h32] at hle
  refine ⟨hle, fun hleaves => ?_⟩
  have hawaits := hlaunched.awaits (matched_run cfg before)
  rcases hawaits.run moves hlaunched.tracked hothers hleaves with ⟨sofar, hsofar, hend⟩ | ⟨hlast, hcopies⟩
  · rw [← hrun] at hend
    exact .inl ⟨sofar, hsofar, hend⟩
  · rw [← hrun, hlaunched.sent.2, Nat.add_comm] at hcopies
    rw [← hrun] at hlast
    have hwaits := hlast.waits htracked
    rw [hcopies] at hle hwaits
    exact .inr ⟨hle, hcopies, hwaits⟩

theorem launched_dispatch (hcommand : resp.command = .send) (hack : needAck resp = true) (hcount : resp.retryCount = 0)
    (htarget : sendTarget l.reactor.sessions resp = some s) (hhas : hasSession l.reactor.sessions s = true)
    (hdue : l.due = []) (hmine : mine resp.payload = true) (hsent : copies mine s l.reactor = 0)
    (htimers : ∀ k e, l.reactor.timers.entries.find? k = some e → ¬ Carries mine s e.callback)
    (hposted : ∀ batch ∈ l.reactor.posted, s ∈ batch.targets → mine batch.resp.payload = false) :
    Launched mine ⟨s, resp.timerKey, resp.payload⟩ resp.maxRetries (Move.apply cfg l (.dispatch now resp)) := by
  obtain ⟨info, hinfo⟩ := Option.isSome_iff_exists.mp hhas
  have hkept : ¬ Discarded l.reactor.sessions resp := by
    rintro ⟨hne, -, hgone⟩
    rw [sendTarget, if_neg fun h => hne h.1] at htarget
    cases htarget
    rw [hhas] at hgone
    cases hgone
  have hdispatch : Move.apply cfg l (.dispatch now resp) =
      ⟨Server.startAckTimer now (sendToSession l.reactor s resp.payload) s resp.timerKey resp.timerTimeout resp.payload
        0 resp.maxRetries, []⟩ := by
    rw [Move.apply, hdue, if_pos isEmpty_nil, dispatchResponse, if_neg hkept, hcommand]
    rw [dispatchSend, htarget]
    dsimp only
    rw [if_pos hack, hcount]
  rw [hdispatch]
  refine ⟨rfl, ⟨hmine, ?_⟩, ⟨_, (find?_insertTimer _ _ _ _ _).trans (if_pos rfl), rfl⟩, fun k e he hcarries => ?_, ?_⟩
  · have hcopies : copies mine s (sendToSession l.reactor s resp.payload) = _ := copies_sendToSession hinfo _
    rw [hsent, if_pos ⟨rfl, hmine⟩] at hcopies
    exact hcopies
  · by_contra hk
    refine htimers k e ?_ hcarries
    rw [Waiting.key] at hk
    rw [Server.startAckTimer, TimerManager.startAckTimer, find?_insertTimer, if_neg hk, sendToSession_timers] at he
    exact he
  · have hsame : (sendToSession l.reactor s resp.payload).posted = l.reactor.posted := by
      rw [sendToSession, show getSessionInfo l.reactor.sessions s = some info from hinfo]
    exact fun batch hbatch => hposted batch (hsame ▸ hbatch)

def hubLogsIn : List Move := SilentSessions.hubArrives ++ [.dispatch 0 (makeMarkAuthenticated hubSession hub "hub_1")]

def hubOrder : Message := SilentSessions.hubOrder "2026-01-01"

def orderSlot (maxRetries : Nat) : Slot := makeSendToUsername ⟨5, maxRetries, 30⟩ "hub_1" hubOrder none

def isOrder : Frame → Bool
  | .message msg _ => msg.timestamp = "2026-01-01"
  | _ => false

def orderWaits : Waiting := ⟨hubSession, "2026-01-01", .message hubOrder none⟩

def orderSent (maxRetries : Nat) : List Move := hubLogsIn ++ [.dispatch 0 (orderSlot maxRetries)]

theorem launched_order (maxRetries : Nat) :
    Launched isOrder orderWaits maxRetries (run ⟨5, maxRetries, 30⟩ (orderSent maxRetries)) := by
  have htimers : (run ⟨5, maxRetries, 30⟩ hubLogsIn).reactor.timers.entries.rows = [] := rfl
  have hposted : (run ⟨5, maxRetries, 30⟩ hubLogsIn).reactor.posted = [] := rfl
  change Launched isOrder
    ⟨hubSession, (orderSlot maxRetries).timerKey, (orderSlot maxRetries).payload⟩
    (orderSlot maxRetries).maxRetries
    (Move.apply ⟨5, maxRetries, 30⟩ (run ⟨5, maxRetries, 30⟩ hubLogsIn)
      (.dispatch 0 (orderSlot maxRetries)))
  refine launched_dispatch rfl rfl rfl rfl rfl rfl rfl rfl ?_ ?_
  · intro k e he
    obtain ⟨hmem, -⟩ := Table.find?_eq_some.mp he
    cases hmem
  · rw [hposted]
    exact fun batch hbatch => absurd hbatch not_mem_nil

def ignored (seconds : List Nat) : List Move :=
  seconds.flatMap fun second => [.event (.expire (second * 10 ^ 9)), .callback (second * 10 ^ 9)]

theorem third_timeout_terminates :
    copies isOrder hubSession (run ⟨5, 3, 30⟩ (orderSent 3 ++ ignored [5, 10, 15])).reactor ≤ max 1 3 ∧
      ∃ sofar, sofar <+: ignored [5, 10, 15] ∧
        Terminated (run ⟨5, 3, 30⟩ (orderSent 3 ++ sofar)).reactor.sessions hubSession := by
  have hothers : Along (Move.apply ⟨5, 3, 30⟩) (Others isOrder hubSession)
      (run ⟨5, 3, 30⟩ (orderSent 3)) (ignored [5, 10, 15]) :=
    ⟨trivial, trivial, trivial, trivial, trivial, trivial, trivial⟩
  obtain ⟨hle, hends⟩ := unacknowledged_message_bounded ⟨5, 3, 30⟩ isOrder orderWaits 3 (by decide) (by decide)
    (orderSent 3) (ignored [5, 10, 15]) (launched_order 3) hothers
  refine ⟨hle, (hends ⟨trivial, trivial, trivial, trivial, trivial, trivial, trivial⟩).resolve_right ?_⟩
  rintro ⟨hlt, -⟩
  have hthree : timeouts ⟨5, 3, 30⟩ isOrder hubSession (run ⟨5, 3, 30⟩ (orderSent 3))
      (ignored [5, 10, 15]) = 3 := by decide +kernel
  rw [show orderWaits.sessionId = hubSession from rfl, hthree] at hlt
  exact absurd hlt (by decide)

/-- Without retries the counter wraps: the order is sent a second and a third time, and
the session stays open. -/
theorem no_retries_resent : Launched isOrder orderWaits 0 (run ⟨5, 0, 30⟩ (orderSent 0)) ∧
      Along (Move.apply ⟨5, 0, 30⟩) (Others isOrder hubSession) (run ⟨5, 0, 30⟩ (orderSent 0)) (ignored [5, 10]) ∧
      copies isOrder hubSession (run ⟨5, 0, 30⟩ (orderSent 0 ++ ignored [5, 10])).reactor = 3 ∧
      ¬ Terminated (run ⟨5, 0, 30⟩ (orderSent 0 ++ ignored [5, 10])).reactor.sessions hubSession := by
  refine ⟨launched_order 0, ⟨trivial, trivial, trivial, trivial, trivial⟩, by decide +kernel, fun hend => ?_⟩
  have hopen : isBlacklisted (run ⟨5, 0, 30⟩ (orderSent 0 ++ ignored [5, 10])).reactor.sessions
      hubSession = false := by decide +kernel
  have hhas : hasSession (run ⟨5, 0, 30⟩ (orderSent 0 ++ ignored [5, 10])).reactor.sessions
      hubSession = true := by decide +kernel
  obtain ⟨info, hinfo⟩ := Option.isSome_iff_exists.mp hhas
  have hblacklisted := hend info hinfo
  rw [SilentSessions.isBlacklisted_eq_false.mp hopen info hinfo] at hblacklisted
  cases hblacklisted

end Progress

end Logistics.RetryBound
