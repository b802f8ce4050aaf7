import Logistics.TimerRefinement

namespace Logistics.TimerHeap

open TimerManager Reachability List Function

variable {γ : Type} {m : Manager γ} {n : Node γ} {reads : Reads} {op : Op γ} {key : TimerKey} {number : Nat}

structure Numbered (m : Manager γ) : Prop where
  heap : ∀ n ∈ m.heap, n.registered.number < m.allocated
  toFire : ∀ n ∈ m.toFire, n.registered.number < m.allocated
  kept : ∀ sessionId callback, m.keepaliveCallbacks sessionId = some callback → callback.number < m.allocated

structure Since (number : Nat) (key : TimerKey) (m : Manager γ) : Prop where
  heap : ∀ n ∈ m.heap, n.key = key → number ≤ n.registered.number
  toFire : ∀ n ∈ m.toFire, n.key = key → number ≤ n.registered.number
  kept : key.type = .keepalive → ∀ callback, m.keepaliveCallbacks key.session = some callback →
    number ≤ callback.number
  allocated : number ≤ m.allocated

theorem started_number (h : op.started m reads = some n) : n.registered.number = m.allocated ∨ ∃ sessionId, n.key =
    ⟨.keepalive, sessionId, ""⟩ ∧ m.keepaliveCallbacks sessionId = some n.registered := by
  cases op with
  | startAck | startKeepalive =>
    cases h
    exact .inl rfl
  | resetKeepalive sessionId =>
    rw [Op.started] at h
    split at h
    next timeout callback _ hcallback =>
      cases h
      exact .inr ⟨sessionId, rfl, hcallback⟩
    next => cases h
  | cancelAck | cancelKeepalive | clearSession => cases h

variable {sessionId : String}

theorem keepaliveCallbacks_startKeepaliveTimer {timeout : Int} {callback : γ} :
    (m.startKeepaliveTimer sessionId timeout callback reads).keepaliveCallbacks =
      update m.keepaliveCallbacks sessionId (some ⟨m.allocated, callback⟩) :=
  keepaliveCallbacks_insertTimer.trans
    (update_again (sameRest_cancelTimer m _ (reads.cancel 0)).keepaliveCallbacks sessionId none _)

theorem Linked.keepaliveCallbacks_clearSessionTimers (h : Linked m) (sessionId : String) :
    (m.clearSessionTimers sessionId reads).keepaliveCallbacks = update m.keepaliveCallbacks sessionId none := by
  rw [← (h.cancelEach ((m.index.rows.map Prod.fst).filter fun key => key.session = sessionId)
    reads.cancel).2.1.keepaliveCallbacks]
  rfl

theorem keepaliveCallbacks_cancelKeepaliveTimer : (m.cancelKeepaliveTimer sessionId reads).keepaliveCallbacks =
    update m.keepaliveCallbacks sessionId none := by
  rw [← (sameRest_cancelTimer m ⟨.keepalive, sessionId, ""⟩ (reads.cancel 0)).keepaliveCallbacks]
  rfl

variable {callback : Registered γ}

theorem of_update_none {table : String → Option (Registered γ)} {other : String}
    (h : update table sessionId none other = some callback) : table other = some callback := by
  rw [update_apply] at h
  split at h
  · cases h
  · exact h

theorem kept_apply (h : Linked m) (hkept : (m.apply reads op).keepaliveCallbacks sessionId = some callback) :
    m.keepaliveCallbacks sessionId = some callback ∨
      callback.number = m.allocated ∧ (m.apply reads op).allocated = m.allocated + 1 := by
  have hallocated := (applied_apply h reads op).allocated
  cases op with
  | startAck => exact .inl (keepaliveCallbacks_insertTimer ▸ hkept)
  | cancelAck => exact .inl ((sameRest_cancelTimer m _ _).keepaliveCallbacks ▸ hkept)
  | startKeepalive started timeout =>
    rw [Manager.apply, keepaliveCallbacks_startKeepaliveTimer, update_apply] at hkept
    split at hkept
    · cases hkept
      exact .inr ⟨rfl, hallocated⟩
    · exact .inl hkept
  | resetKeepalive =>
    rw [Manager.apply, Manager.resetKeepaliveTimer] at hkept
    split at hkept
    · exact .inl (keepaliveCallbacks_insertTimer ▸ hkept)
    · exact .inl hkept
  | cancelKeepalive =>
    rw [Manager.apply, keepaliveCallbacks_cancelKeepaliveTimer] at hkept
    exact .inl (of_update_none hkept)
  | clearSession =>
    rw [Manager.apply, h.keepaliveCallbacks_clearSessionTimers] at hkept
    exact .inl (of_update_none hkept)

theorem kept_cancelled (hcancels : op.Cancels key) (htype : key.type = .keepalive) :
    (m.apply reads op).keepaliveCallbacks key.session = none := by
  cases op with
  | cancelAck =>
    rw [hcancels] at htype
    cases htype
  | cancelKeepalive sessionId | clearSession sessionId =>
    rw [hcancels]
    exact update_self _ _ _
  | startAck | startKeepalive | resetKeepalive => exact hcancels.elim

theorem allocated_le (h : Linked m) : m.allocated ≤ (m.apply reads op).allocated := by
  rw [(applied_apply h reads op).allocated]
  exact Nat.le_add_right _ _

theorem Numbered.step (h : Numbered m) (hlinked : Linked m) (e : Event γ) : Numbered (step m e) := by
  cases e with
  | call op reads =>
    have happlied := applied_apply hlinked reads op
    have hle : m.allocated ≤ (m.apply reads op).allocated := allocated_le hlinked
    refine ⟨fun n hn => ?_, fun n hn => ?_, fun sessionId callback hkept => ?_⟩
    · rcases (happlied.heap n).mp hn with hn | ⟨hn, -⟩
      · rcases started_number hn with hnumber | ⟨sessionId, -, hkept⟩
        · have hnew : (m.apply reads op).allocated = m.allocated + 1 := by
            rw [happlied.allocated, hn]
            rfl
          exact hnumber.trans_lt (hnew ▸ Nat.lt_succ_self _)
        · exact (h.kept sessionId _ hkept).trans_le hle
      · exact (h.heap n hn).trans_le hle
    · exact (h.toFire n (happlied.toFire ▸ hn)).trans_le hle
    · rcases kept_apply hlinked hkept with hkept | ⟨hnumber, hnew⟩
      · exact (h.kept sessionId callback hkept).trans_le hle
      · exact hnumber.trans_lt (hnew ▸ Nat.lt_succ_self _)
  | ready reads =>
    refine ⟨fun n hn => ?_, fun n hn => ?_, h.kept⟩
    · exact h.heap n (mem_of_mem_filter (hlinked.heap_onTimerfdReady ▸ hn))
    · exact h.heap n (mem_of_mem_filter (hlinked.toFire_onTimerfdReady ▸ hn))
  | fire =>
    rw [TimerHeap.step, Manager.fire]
    split
    next => exact h
    next node batch htoFire =>
      exact ⟨h.heap, fun n hn => h.toFire n (htoFire ▸ mem_cons_of_mem node hn), h.kept⟩

theorem numbered_run (events : List (Event γ)) : Numbered (events.foldl step .start) := by
  have hstart : Numbered (Manager.start : Manager γ) := by
    refine ⟨fun n hn => ?_, fun n hn => ?_, fun sessionId callback hkept => ?_⟩
    · cases hn
    · cases hn
    · cases hkept
  have hboth : Linked (events.foldl step .start) ∧ Numbered (events.foldl step .start) :=
    List.foldlRecOn (motive := fun m => Linked m ∧ Numbered m) events step ⟨linked_start, hstart⟩
      fun m hm e _ => ⟨hm.1.step e, hm.2.step hm.1 e⟩
  exact hboth.2

theorem Since.step (h : Since number key m) (hlinked : Linked m) (e : Event γ) : Since number key (step m e) := by
  cases e with
  | call op reads =>
    have happlied := applied_apply hlinked reads op
    refine ⟨fun n hn hkey => ?_, fun n hn => ?_, fun htype callback hkept => ?_, ?_⟩
    · rcases (happlied.heap n).mp hn with hn | ⟨hn, -⟩
      · rcases started_number hn with hnumber | ⟨sessionId, hnew, hkept⟩
        · exact hnumber ▸ h.allocated
        · obtain rfl : ⟨.keepalive, sessionId, ""⟩ = key := hnew.symm.trans hkey
          exact h.kept rfl _ hkept
      · exact h.heap n hn hkey
    · exact h.toFire n (happlied.toFire ▸ hn)
    · rcases kept_apply hlinked hkept with hkept | ⟨hnumber, -⟩
      · exact h.kept htype callback hkept
      · exact hnumber ▸ h.allocated
    · exact h.allocated.trans (allocated_le hlinked)
  | ready reads =>
    refine ⟨fun n hn => ?_, fun n hn => ?_, h.kept, h.allocated⟩
    · exact h.heap n (mem_of_mem_filter (hlinked.heap_onTimerfdReady ▸ hn))
    · exact h.heap n (mem_of_mem_filter (hlinked.toFire_onTimerfdReady ▸ hn))
  | fire =>
    rw [TimerHeap.step, Manager.fire]
    split
    next => exact h
    next node batch htoFire =>
      exact ⟨h.heap, fun n hn => h.toFire n (htoFire ▸ mem_cons_of_mem node hn), h.kept, h.allocated⟩

theorem since_of_cancels (reads : Reads) (hlinked : Linked m) (hcancels : op.Cancels key)
    (htoFire : ∀ n ∈ m.toFire, n.key ≠ key) : Since m.allocated key (m.apply reads op) := by
  have happlied := applied_apply hlinked reads op
  have hstarted : op.started m reads = none := by
    cases op with
    | startAck | startKeepalive | resetKeepalive => exact hcancels.elim
    | cancelAck | cancelKeepalive | clearSession => rfl
  refine ⟨fun n hn hkey => ?_, fun n hn hkey => ?_, fun htype callback hkept => ?_, allocated_le hlinked⟩
  · rcases (happlied.heap n).mp hn with hn | ⟨-, hnot, -⟩
    · cases hstarted.symm.trans hn
    · exact absurd (hkey ▸ hcancels) hnot
  · exact absurd hkey (htoFire n (happlied.toFire ▸ hn))
  · cases (kept_cancelled hcancels htype).symm.trans hkept

theorem Since.fired_run (h : Since number key m) (hlinked : Linked m) (rest : List (Event γ)) :
    ∃ fired, (rest.foldl TimerHeap.step m).fired = m.fired ++ fired ∧
      ∀ n ∈ fired, n.key = key → number ≤ n.registered.number := by
  induction rest generalizing m with
  | nil => exact ⟨[], (append_nil _).symm, fun n hn => absurd hn not_mem_nil⟩
  | cons e rest ih =>
    obtain ⟨later, hlater, hall⟩ := ih (h.step hlinked e) (hlinked.step e)
    rw [foldl_cons, hlater]
    cases e with
    | call op reads => exact ⟨later, congrArg (· ++ later) (applied_apply hlinked reads op).fired, hall⟩
    | ready reads => exact ⟨later, rfl, hall⟩
    | fire =>
      rw [TimerHeap.step, Manager.fire]
      cases htoFire : m.toFire with
      | nil => exact ⟨later, rfl, hall⟩
      | cons node batch =>
        refine ⟨node :: later, append_assoc _ _ _, fun n hn => ?_⟩
        rcases mem_cons.mp hn with rfl | hn
        · exact h.toFire n (htoFire ▸ mem_cons_self)
        · exact hall n hn

theorem batch_runs (m : Manager γ) : Along step Possible m (replicate m.toFire.length .fire) ∧
    ((replicate m.toFire.length .fire).foldl step m).fired = m.fired ++ m.toFire := by
  generalize hbatch : m.toFire = batch
  induction batch generalizing m with
  | nil => exact ⟨trivial, (append_nil _).symm⟩
  | cons node batch ih =>
    have hstep : step m .fire = { m with toFire := batch, fired := m.fired ++ [node] } := by
      rw [TimerHeap.step, Manager.fire, hbatch]
    obtain ⟨halong, hfired⟩ := ih { m with toFire := batch, fired := m.fired ++ [node] } rfl
    rw [length_cons, replicate_succ, foldl_cons, hstep]
    refine ⟨⟨fun h => cons_ne_nil _ _ (hbatch.symm.trans h), hstep ▸ halong⟩, ?_⟩
    exact hfired.trans (append_assoc _ _ _)

/-- No callback that was registered under a key before the call runs after it. -/
def SilentAfter (m : Manager γ) (op : Op γ) (reads : Reads) (key : TimerKey) : Prop :=
  ∀ rest fired, Along step Possible (step m (.call op reads)) rest →
    (rest.foldl step (step m (.call op reads))).fired = m.fired ++ fired →
    ∀ n ∈ fired, n.key = key → m.allocated ≤ n.registered.number

/-- A timer that is cancelled is silent from then on exactly when its callback was not
already waiting in a batch. -/
theorem cancelled_timer_silent_iff (events : List (Event γ)) (op : Op γ) (reads : Reads) (key : TimerKey)
    (hcancels : op.Cancels key) :
    SilentAfter (events.foldl step .start) op reads key ↔ ∀ n ∈ (events.foldl step .start).toFire, n.key ≠ key := by
  have hlinked := linked_run events
  have hnumbered := numbered_run events
  generalize events.foldl step .start = m at hlinked hnumbered ⊢
  have happlied := applied_apply hlinked reads op
  constructor
  · intro hsilent n hn hkey
    obtain ⟨halong, hfired⟩ := batch_runs (step m (.call op reads))
    have hnew : (step m (.call op reads)).fired ++ (step m (.call op reads)).toFire = m.fired ++ m.toFire :=
      congrArg₂ (· ++ ·) happlied.fired happlied.toFire
    exact absurd (hsilent _ _ halong (hfired.trans hnew) n hn hkey) (Nat.not_le.mpr (hnumbered.toFire n hn))
  · intro htoFire rest fired _ hfired
    obtain ⟨later, hlater, hall⟩ :=
      (since_of_cancels reads hlinked hcancels htoFire).fired_run happlied.linked rest
    rw [happlied.fired] at hlater
    obtain rfl : fired = later := append_cancel_left (hfired.symm.trans hlater)
    exact hall

def readsAt (now : Int) : Reads := ⟨[], now, now⟩

def twoStarts : List (Event String) :=
  [.call (.startAck "tcp_session_1" "2026-01-01" 5 "first") (readsAt 0),
    .call (.startAck "tcp_session_1" "2026-01-02" 5 "second") (readsAt 0)]

def firstExpired : List (Event String) := twoStarts ++ [.ready (readsAt (5 * 10 ^ 9)), .fire]

theorem acknowledged_timer_silent : SilentAfter (twoStarts.foldl step .start) (.cancelAck "tcp_session_1" "2026-01-02")
    (readsAt 1) ⟨.ack, "tcp_session_1", "2026-01-02"⟩ := by
  have hcancels : Op.Cancels (.cancelAck "tcp_session_1" "2026-01-02" : Op String)
      ⟨.ack, "tcp_session_1", "2026-01-02"⟩ := rfl
  refine (cancelled_timer_silent_iff twoStarts _ _ _ hcancels).mpr fun n hn => ?_
  cases hn

/-- The first callback clears its session, and the second one still runs. -/
theorem cleared_timer_fires : Along step Possible .start firstExpired ∧
    ¬ SilentAfter (firstExpired.foldl step .start) (.clearSession "tcp_session_1") (readsAt (5 * 10 ^ 9))
      ⟨.ack, "tcp_session_1", "2026-01-02"⟩ := by
  refine ⟨⟨trivial, trivial, rfl, cons_ne_nil _ _, trivial⟩, fun hsilent => ?_⟩
  have hlate := hsilent [.fire] [⟨1, 5 * 10 ^ 9, ⟨.ack, "tcp_session_1", "2026-01-02"⟩, ⟨1, "second"⟩⟩]
    ⟨cons_ne_nil _ _, trivial⟩ (by decide +kernel) _ (mem_singleton_self _) rfl
  exact absurd hlate (by decide)

end Logistics.TimerHeap
