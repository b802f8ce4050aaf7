import Logistics.RetryTimers
import Logistics.Scenario

namespace Logistics.RetryTimers

open KeyedTable JsonManager SessionManager TimerManager Worker Server Scenario

variable {cfg : Config} {st : State}

theorem Matched.apply (h : Matched st.reactor.timers) (step : Step) : Matched (step.apply cfg st).reactor.timers := by
  cases step with
  | event e =>
    rw [Step.apply_event_reactor]
    exact h.event e
  | take => exact h
  | dispatch now resp acknowledged => exact h.dispatch resp

theorem Kept.of_find?_eq (h : Kept st) {st' : State} (hW : st'.awaiting ⊆ st.awaiting)
    (ht : ∀ w ∈ st'.awaiting, st'.reactor.timers.entries.find? w.key = st.reactor.timers.entries.find? w.key) :
    Kept st' :=
  fun w hw => .of_find?_eq (ht w hw) (h w (hW hw))

theorem ended_subset (W : Set Waiting) (sessionId : String) : ended W sessionId ⊆ W := fun _ h => h.1

theorem Kept.clear (h : Kept st) (sessionId : String) (r' : Reactor)
    (hr : r'.timers = TimerManager.clearSessionTimers st.reactor.timers sessionId) :
    Kept ⟨r', ended st.awaiting sessionId⟩ := by
  apply h.of_find?_eq (ended_subset _ _)
  intro w hw
  rw [hr, find?_clearSessionTimers]
  exact if_neg hw.2

theorem Kept.cancel_iff (h : Kept st) (x : Waiting) (r' : Reactor)
    (hr : r'.timers = cancelTimer st.reactor.timers x.key) :
    Kept ⟨r', {w | w ∈ st.awaiting ∧ w ≠ x}⟩ ↔ Free st.awaiting x := by
  have hfind : ∀ k, r'.timers.entries.find? k = if k = x.key then none else st.reactor.timers.entries.find? k := by
    intro k
    rw [hr, find?_cancelTimer]
  constructor
  · intro hk w hw he
    by_contra hp
    obtain ⟨e, hfound, -⟩ := hk w ⟨hw, fun hx => hp (congrArg Waiting.payload hx)⟩
    rw [hfind, if_pos he] at hfound
    cases hfound
  · rintro hfree w ⟨hw, hne⟩
    have hk : w.key ≠ x.key := fun he => hne (Waiting.eq_of_key_eq he (hfree w hw he))
    exact .of_find?_eq ((hfind w.key).trans (if_neg hk)) (h w hw)

theorem Kept.event_iff (hm : Matched st.reactor.timers) (h : Kept st) (e : Event) :
    Kept (Step.apply cfg st (.event e)) ↔ Step.Distinct st (.event e) := by
  cases e with
  | expire now => exact iff_of_true (Firing.start hm h now).foldl trivial
  | wakeup now => exact arms_onWakeup.pending_iff h
  | hangup sessionId =>
    refine iff_of_true (h.of_find?_eq ?_ ?_) trivial
    · simp only [Step.apply]
      split
      · exact ended_subset _ _
      · exact subset_rfl
    · intro w _
      rw [Step.apply_event_reactor, event_timers]
      · exact fun _ => nofun
      · exact fun _ => nofun
  | accept | frame | datagram =>
    refine iff_of_true (h.of_find?_eq subset_rfl ?_) trivial
    intro w _
    rw [Step.apply_event_reactor, event_timers]
    · exact fun _ => nofun
    · exact fun _ => nofun

theorem Kept.dispatch_iff (h : Kept st) (now : Nat) (resp : Slot) (acknowledged : Frame) :
    Kept (Step.apply cfg st (.dispatch now resp acknowledged)) ↔
      Step.Distinct st (.dispatch now resp acknowledged) := by
  rw [Step.apply, Step.Distinct]
  by_cases hd : Discarded st.reactor.sessions resp
  · rw [dispatchResponse, if_pos hd, if_pos hd]
    exact iff_of_true h (.inl hd)
  rw [dispatchResponse, if_neg hd, if_neg hd, or_iff_right hd]
  cases hc : resp.command with
  | cancelAckTimer => exact h.cancel_iff ⟨resp.sessionId, resp.timerKey, acknowledged⟩ _ rfl
  | clearTimers => simpa [dispatchStarts, hc] using h.clear resp.sessionId _ rfl
  | disconnect => simpa [dispatchStarts, hc] using h.clear resp.sessionId _ (handleKeepaliveTimeout_timers _)
  | send => exact (arms_dispatchSend resp hc).pending_iff h
  | startAckTimer =>
    rw [dispatchStarts, hc]
    exact (arms_startAckTimer ⟨resp.sessionId, resp.timerKey, resp.payload⟩ _ _ _).pending_iff h
  | broadcast =>
    rw [dispatchStarts, hc]
    exact (arms_sendBatch st.reactor.sessions rfl _).pending_iff h
  | startKeepaliveTimer =>
    simp only [dispatchStarts, hc, List.not_mem_nil]
    refine iff_of_true (h.of_find?_eq (by simp) ?_) (by simp)
    exact fun w _ => (find?_startKeepaliveTimer _ _ _ _).trans (if_neg (by rintro ⟨⟩))
  | resetKeepaliveTimer =>
    simp only [dispatchStarts, hc, List.not_mem_nil]
    refine iff_of_true (h.of_find?_eq (by simp) ?_) (by simp)
    exact fun w _ => find?_resetKeepaliveTimer _ _ rfl
  | blacklist | markAuthenticated | mqttPublishRoute =>
    simp only [dispatchStarts, hc, List.not_mem_nil]
    exact iff_of_true (h.of_find?_eq (by simp) fun _ _ => rfl) (by simp)

theorem Kept.apply_iff (hm : Matched st.reactor.timers) (h : Kept st) (step : Step) :
    Kept (step.apply cfg st) ↔ step.Distinct st := by
  cases step with
  | event e => exact h.event_iff hm e
  | take => exact iff_of_true h trivial
  | dispatch now resp acknowledged => exact h.dispatch_iff now resp acknowledged

/-- In every state of a run, exactly when every step of it meets its condition. -/
theorem retry_timers_kept_iff (cfg : Config) (steps : List Step) :
    (∀ before, before <+: steps → Kept (run cfg before)) ↔
      ∀ before step, before ++ [step] <+: steps → step.Distinct (run cfg before) := by
  have hstart : Kept ⟨Server.start, ∅⟩ := fun w hw => absurd hw (Set.notMem_empty w)
  exact Reachability.prefix_iff (I := fun st => Matched st.reactor.timers) matched_start
    (fun _ step hm => hm.apply step) hstart (fun _ step hm h => Kept.apply_iff hm h step) steps

def hubLogin : Message :=
  createMessage .hubToServerAuthRequest hub "h1" server server (.authRequest "h1" "secret") "2026-01-01"

def stockedHub : Store where
  db := handled (itemsMessage .hubToServerInventoryUpdate hub "h1" "2026-01-01" (oneItem 1 10)) emptyDb
  credentials := Table.empty.put ⟨"h1", "secret", hub, false⟩
  deadSessions := ∅

def loginRun : List Step :=
  .event .accept ::
    (handleAuthRequest ⟨5, 3, 30⟩ plainOracle hubLogin
      ⟨"tcp_session_1", .tcp, "", 0, false, false, false, "", ""⟩ stockedHub).1.map fun resp => .dispatch 0 resp .empty

def loginReply : Message :=
  createMessage .serverToHubAuthResponse server server hub "h1" (.authResponse 200) "2026-01-05"

theorem login_reply_loses_timer : ¬ Kept (run ⟨5, 3, 30⟩ loginRun) := by
  intro h
  have hreply : ⟨"tcp_session_1", "2026-01-05", .message loginReply none⟩ ∈ (run ⟨5, 3, 30⟩ loginRun).awaiting :=
    .inl (.inl (.inl (.inr (List.mem_singleton.mpr rfl))))
  have hstock : ∃ m, ⟨"tcp_session_1", "2026-01-05", .message m none⟩ ∈ (run ⟨5, 3, 30⟩ loginRun).awaiting ∧
      m.msgType = .serverToHubInventoryUpdate := ⟨_, .inl (.inr (List.mem_singleton.mpr rfl)), rfl⟩
  obtain ⟨m, hm, htype⟩ := hstock
  have he := (h _ hreply).payload_eq (h _ hm) rfl
  cases he
  exact absurd htype nofun

end Logistics.RetryTimers
