import Logistics.ServerSystem

namespace Logistics.ActiveFlags

open Ipc JsonManager SessionManager TimerManager Worker Server List Deserialize MessageHandler AuthModule Function
open ServerSystem

variable {cfg : Config} {now n : Nat} {r r' r'' : Reactor} {s : String} {info : SessionInfo}

def Leaves (u : String) (req : RequestSlot) : Prop :=
  req.isDisconnect = true ∧ req.username = safeStrcpy credentialsSize u

structure Closes (r r' : Reactor) : Prop where
  requests : ∃ new, r'.requests = r.requests ++ new ∧
    ∀ s info, r.sessions.sessions.find? s = some info → Eligible info.username info → info.username ≠ "" →
      (∃ info', r'.sessions.sessions.find? s = some info' ∧ Eligible info.username info') ∨
        ∃ req ∈ new, Leaves info.username req
  sessions : ∀ s info', r'.sessions.sessions.find? s = some info' →
    info'.isAuthenticated = false ∧ info'.username = "" ∨
      ∃ info, r.sessions.sessions.find? s = some info ∧ info'.username = info.username ∧
        info'.isAuthenticated = info.isAuthenticated ∧ (info.isBlacklisted = true → info'.isBlacklisted = true)
  taken : r'.taken = r.taken

theorem Closes.of_sessions_eq (hs : r'.sessions = r.sessions) {new : List RequestSlot}
    (hq : r'.requests = r.requests ++ new) (ht : r'.taken = r.taken) : Closes r r' where
  requests := ⟨new, hq, fun s info hinfo heligible _ => .inl ⟨info, by rwa [hs], heligible⟩⟩
  sessions s info' hinfo := .inr ⟨info', by rwa [hs] at hinfo, rfl, rfl, id⟩
  taken := ht

theorem Closes.same (hs : r'.sessions = r.sessions) (hq : r'.requests = r.requests) (ht : r'.taken = r.taken) :
    Closes r r' :=
  .of_sessions_eq hs (hq.trans (append_nil _).symm) ht

theorem Closes.refl (r : Reactor) : Closes r r := .same rfl rfl rfl

theorem Closes.trans (h : Closes r r') (h' : Closes r' r'') : Closes r r'' where
  requests := by
    obtain ⟨new, hq, hlost⟩ := h.requests
    obtain ⟨new', hq', hlost'⟩ := h'.requests
    refine ⟨new ++ new', by rw [hq', hq, append_assoc], fun s info hinfo heligible hne => ?_⟩
    rcases hlost s info hinfo heligible hne with ⟨info', hinfo', heligible'⟩ | ⟨req, hmem, hleaves⟩
    · have hname : info'.username = info.username := heligible'.2.2
      rcases hlost' s info' hinfo' (hname ▸ heligible') (hname ▸ hne) with ⟨info'', hinfo'', heligible''⟩ |
        ⟨req, hmem, hleaves⟩
      · exact .inl ⟨info'', hinfo'', hname ▸ heligible''⟩
      · exact .inr ⟨req, mem_append_right _ hmem, hname ▸ hleaves⟩
    · exact .inr ⟨req, mem_append_left _ hmem, hleaves⟩
  sessions s info'' hinfo'' := by
    rcases h'.sessions s info'' hinfo'' with hempty | ⟨info', hinfo', hname', hauth', hblack'⟩
    · exact .inl hempty
    · rcases h.sessions s info' hinfo' with ⟨hauth, hempty⟩ | ⟨info, hinfo, hname, hauth, hblack⟩
      · exact .inl ⟨hauth'.trans hauth, hname'.trans hempty⟩
      · exact .inr ⟨info, hinfo, hname'.trans hname, hauth'.trans hauth, fun hb => hblack' (hblack hb)⟩
  taken := h'.taken.trans h.taken

def Room (n : Nat) (r : Reactor) : Prop := r.requests.length - r.taken + n ≤ requestQueueSize

instance : Decidable (Room n r) := inferInstanceAs (Decidable (_ ≤ _))

theorem Room.pushRequest (h : Room (n + 1) r) (req : RequestSlot) :
    pushRequest r req = { r with requests := r.requests ++ [req] } := by
  rw [Server.pushRequest, if_pos]
  rw [Room] at h
  omega

variable {req : RequestSlot}

theorem Room.append (h : Room (n + 1) r) (hq : r'.requests = r.requests ++ [req])
    (ht : r'.taken = r.taken) : Room n r' := by
  rw [Room] at h
  rw [Room, hq, length_append, length_singleton]
  omega

theorem Room.mono (h : Room (n + 1) r) (hq : r'.requests = r.requests) (ht : r'.taken = r.taken) : Room n r' := by
  rw [Room] at h
  rw [Room, hq]
  omega

theorem pushRequest_taken (req : RequestSlot) : (pushRequest r req).taken = r.taken := by
  rw [pushRequest]
  split <;> rfl

theorem closes_pushRequest (req : RequestSlot) : Closes r (pushRequest r req) := by
  rcases pushRequest_cases (r := r) req with hq | hq
  · exact .same (pushRequest_sessions _) hq (pushRequest_taken _)
  · exact .of_sessions_eq (pushRequest_sessions _) hq (pushRequest_taken _)

structure Ends (s : String) (m m' : Sessions) : Prop where
  self : ∀ info', m'.sessions.find? s = some info' → ∃ info, m.sessions.find? s = some info ∧
    info' = { info with isBlacklisted := true }
  others : ∀ v, v ≠ s → m'.sessions.find? v = m.sessions.find? v

theorem ends_remove (s : String) (m : Sessions) : Ends s m (SessionManager.removeSession m s) where
  self info' h := by
    rw [find?_removeSession, if_pos rfl] at h
    cases h
  others v hv := by rw [find?_removeSession, if_neg hv]

theorem ends_blacklist (s : String) (m : Sessions) : Ends s m (SessionManager.blacklistSession m s) where
  self info' h := by
    rw [find?_blacklistSession, if_pos rfl] at h
    obtain ⟨info, hinfo, rfl⟩ := Option.map_eq_some_iff.mp h
    exact ⟨info, hinfo, rfl⟩
  others v hv := by rw [find?_blacklistSession, if_neg hv]

theorem closes_end (hroom : Room (n + 1) r) (hinfo : r.sessions.sessions.find? s = some info)
    (hends : Ends s r.sessions r'.sessions) (hq : r'.requests = (notifyDisconnect r info).requests)
    (ht : r'.taken = r.taken) : Closes r r' ∧ Room n r' := by
  have hsessions : ∀ v info', r'.sessions.sessions.find? v = some info' → ∃ old, r.sessions.sessions.find? v = some old ∧
      info'.username = old.username ∧ info'.isAuthenticated = old.isAuthenticated ∧
        (old.isBlacklisted = true → info'.isBlacklisted = true) := by
    intro v info' hinfo'
    by_cases hv : v = s
    · subst hv
      obtain ⟨old, hold, rfl⟩ := hends.self info' hinfo'
      exact ⟨old, hold, rfl, rfl, fun _ => rfl⟩
    · rw [hends.others v hv] at hinfo'
      exact ⟨info', hinfo', rfl, rfl, id⟩
  rw [notifyDisconnect] at hq
  split at hq
  · next hsilent =>
    refine ⟨⟨⟨[], hq.trans (append_nil _).symm, fun v old hold heligible hne => ?_⟩,
      fun v info' h => .inr (hsessions v info' h), ht⟩, hroom.mono hq ht⟩
    by_cases hv : v = s
    · subst hv
      obtain rfl := Option.some.inj (hinfo.symm.trans hold)
      rcases hsilent with ⟨-, hauth⟩ | hempty
      · exact absurd (hauth.symm.trans heligible.1) Bool.false_ne_true
      · exact absurd hempty hne
    · exact .inl ⟨old, by rwa [hends.others v hv], heligible⟩
  · rw [hroom.pushRequest] at hq
    refine ⟨⟨⟨[disconnectOf info], hq, fun v old hold heligible _ => ?_⟩,
      fun v info' h => .inr (hsessions v info' h), ht⟩, hroom.append hq ht⟩
    by_cases hv : v = s
    · subst hv
      obtain rfl := Option.some.inj (hinfo.symm.trans hold)
      exact .inr ⟨_, mem_singleton_self _, rfl, rfl⟩
    · exact .inl ⟨old, by rwa [hends.others v hv], heligible⟩

theorem notifyDisconnect_taken (info : SessionInfo) : (notifyDisconnect r info).taken = r.taken := by
  rw [notifyDisconnect]
  split
  · rfl
  · exact pushRequest_taken _

theorem sendToSession_taken (sessionId : String) (data : Frame) : (sendToSession r sessionId data).taken = r.taken := by
  rw [sendToSession]
  split <;> rfl

theorem closes_remove (hroom : Room (n + 1) r) (hinfo : getSessionInfo r.sessions s = some info) :
    Closes r (Server.removeSession (notifyDisconnect r info) s) ∧
      Room n (Server.removeSession (notifyDisconnect r info) s) := by
  refine closes_end hroom hinfo ?_ rfl (notifyDisconnect_taken info)
  rw [Server.removeSession, notifyDisconnect_sessions]
  exact ends_remove s r.sessions

theorem closes_blacklist (hroom : Room (n + 1) r) (hinfo : getSessionInfo r.sessions s = some info) :
    Closes r (Server.blacklistSession (notifyDisconnect r info) s) ∧
      Room n (Server.blacklistSession (notifyDisconnect r info) s) := by
  refine closes_end hroom hinfo ?_ rfl (notifyDisconnect_taken info)
  rw [Server.blacklistSession, notifyDisconnect_sessions]
  exact ends_blacklist s r.sessions

theorem closes_clear (hroom : Room (n + 1) r) (sessionId : String) :
    Closes r (Server.clearSessionTimers r sessionId) ∧ Room (n + 1) (Server.clearSessionTimers r sessionId) :=
  ⟨.same rfl rfl rfl, hroom⟩

theorem closes_handleKeepaliveTimeout (hroom : Room (n + 1) r) (s : String) :
    Closes r (handleKeepaliveTimeout r s) ∧ Room n (handleKeepaliveTimeout r s) := by
  obtain ⟨hclear, hroom'⟩ := closes_clear hroom s
  rw [handleKeepaliveTimeout]
  split
  · exact ⟨hclear, hroom.mono rfl rfl⟩
  · next info hinfo =>
    obtain ⟨hremove, hroom''⟩ := closes_remove hroom' hinfo
    exact ⟨hclear.trans hremove, hroom''⟩

theorem closes_fire (hroom : Room (n + 1) r) (c : Callback) : Closes r (fire cfg now r c) ∧
    Room n (fire cfg now r c) := by
  cases c with
  | keepaliveTimeout s => exact closes_handleKeepaliveTimeout hroom s
  | ackTimeout s timerKey payload retryCount maxRetries =>
    obtain ⟨hclear, hroom'⟩ := closes_clear hroom s
    rw [fire, handleAckTimeout]
    split
    · exact ⟨.refl r, hroom.mono rfl rfl⟩
    · next info hinfo =>
      split
      · split
        · obtain ⟨hremove, hroom''⟩ := closes_remove hroom' hinfo
          exact ⟨hclear.trans hremove, hroom''⟩
        · obtain ⟨hblacklist, hroom''⟩ := closes_blacklist hroom' hinfo
          exact ⟨hclear.trans hblacklist, hroom''⟩
      · have hq : (Server.startAckTimer now (sendToSession r s payload) s timerKey cfg.ackTimeout payload
            (retryCount + 1) maxRetries).requests = r.requests := sendToSession_requests _ _
        exact ⟨.same (sendToSession_sessions _ _) hq (sendToSession_taken _ _), hroom.mono hq (sendToSession_taken _ _)⟩

theorem closes_foldl_fire (callbacks : List Callback) (hroom : Room callbacks.length r) :
    Closes r (callbacks.foldl (fire cfg now) r) := by
  induction callbacks generalizing r with
  | nil => exact .refl r
  | cons c callbacks ih =>
    obtain ⟨hfire, hroom'⟩ := closes_fire hroom c
    exact hfire.trans (ih hroom')

theorem closes_sendBatch (batch : Batch) (r : Reactor) : Closes r (sendBatch now r batch) := by
  rw [sendBatch]
  induction batch.targets generalizing r with
  | nil => exact .refl r
  | cons target targets ih =>
    have htaken : (broadcastTo now batch.resp r target).taken = r.taken := by
      rw [broadcastTo]
      split
      · dsimp only
        split <;> exact sendToSession_taken _ _
      · rfl
    exact Closes.trans (.same (broadcastTo_sessions _ _) (broadcastTo_requests _ _) htaken) (ih _)

def Event.load (r : Reactor) : Event → Nat
  | .expire now => (dueEntries r.timers now).length
  | _ => 1

theorem Closes.of_sessions (hold : ∀ s info, r.sessions.sessions.find? s = some info →
      ∃ info', r'.sessions.sessions.find? s = some info' ∧ (Eligible info.username info → Eligible info.username info'))
    (hnew : ∀ s info', r'.sessions.sessions.find? s = some info' → info'.isAuthenticated = false ∧ info'.username = "" ∨
      ∃ info, r.sessions.sessions.find? s = some info ∧ info'.username = info.username ∧
        info'.isAuthenticated = info.isAuthenticated ∧ (info.isBlacklisted = true → info'.isBlacklisted = true))
    (hq : r'.requests = r.requests) (ht : r'.taken = r.taken) : Closes r r' where
  requests := by
    refine ⟨[], hq.trans (append_nil _).symm, fun s info hinfo heligible _ => .inl ?_⟩
    obtain ⟨info', hinfo', hkept⟩ := hold s info hinfo
    exact ⟨info', hinfo', hkept heligible⟩
  sessions := hnew
  taken := ht

theorem closes_accept (hsound : Sound r.sessions) : Closes r (onAccept r) := by
  refine .of_sessions (fun s info hinfo => ⟨info, ?_, id⟩) (fun s info' hinfo' => ?_) rfl rfl
  · rw [onAccept, find?_createSession, if_neg, hinfo]
    rintro rfl
    rw [hsound.fresh _ (Nat.lt_succ_self _)] at hinfo
    cases hinfo
  · rw [onAccept, find?_createSession] at hinfo'
    split at hinfo'
    · cases hinfo'
      exact .inl ⟨rfl, rfl⟩
    · exact .inr ⟨info', hinfo', rfl, rfl, id⟩

theorem closes_udp (sender : Address) :
    Closes r { r with sessions := (getOrCreateUdpSession r.sessions sender).2 } := by
  refine .of_sessions (fun s info hinfo => ?_) (fun s info' hinfo' => ?_) rfl rfl
  · rw [find?_getOrCreateUdpSession]
    split
    · rw [hinfo]
      exact ⟨_, rfl, id⟩
    · exact ⟨info, hinfo, id⟩
  · rw [find?_getOrCreateUdpSession] at hinfo'
    split at hinfo'
    · cases hinfo : r.sessions.sessions.find? s with
      | none =>
        rw [hinfo] at hinfo'
        cases hinfo'
        exact .inl ⟨rfl, rfl⟩
      | some info =>
        rw [hinfo] at hinfo'
        cases hinfo'
        exact .inr ⟨info, rfl, rfl, rfl, id⟩
    · exact .inr ⟨info', hinfo', rfl, rfl, id⟩

theorem closes_event (hsound : Sound r.sessions) (e : Event) (hroom : Room (Event.load r e) r) :
    Closes r (e.apply cfg r) := by
  cases e with
  | accept => exact closes_accept hsound
  | frame s rawJson =>
    rw [Event.apply, onFrame]
    split
    · exact .refl r
    · split
      · exact closes_pushRequest _
      · exact .refl r
  | hangup s =>
    rw [Event.apply, onHangup]
    split
    · exact .refl r
    · next info hinfo =>
      split
      · exact (closes_remove hroom hinfo).1
      · exact .refl r
  | datagram sender rawJson payloadLen => exact (closes_udp sender).trans (closes_pushRequest _)
  | expire now =>
    have hout : Closes r { r with timers := withoutDue r.timers now } := .same rfl rfl rfl
    refine hout.trans (closes_foldl_fire _ ?_)
    rw [length_map]
    exact hroom
  | wakeup now =>
    rw [Event.apply, onWakeup]
    have hnone : Closes r { r with posted := [] } := .same rfl rfl rfl
    refine hnone.trans ?_
    generalize ({ r with posted := [] } : Reactor) = r'
    induction r.posted generalizing r' with
    | nil => exact .refl r'
    | cons batch batches ih => exact (closes_sendBatch batch r').trans (ih _)

theorem closes_dispatch (hroom : Room 1 r) {resp : Slot} (hblacklist : resp.command ≠ .blacklist)
    (hmark : resp.command ≠ .markAuthenticated) : Closes r (dispatchResponse now r resp) := by
  rw [dispatchResponse]
  split
  · exact .refl r
  cases hc : resp.command with
  | send =>
    simp only [dispatchSend]
    split
    · exact .refl r
    · split <;> exact .same (sendToSession_sessions _ _) (sendToSession_requests _ _) (sendToSession_taken _ _)
  | blacklist => exact absurd hc hblacklist
  | markAuthenticated => exact absurd hc hmark
  | disconnect => exact (closes_handleKeepaliveTimeout hroom _).1
  | broadcast => exact (closes_sendBatch _ r).trans (.same rfl rfl rfl)
  | _ => exact .same rfl rfl rfl

theorem exists_mem_update {ι α : Type} [DecidableEq ι] {a : α} (out : ι → List α) (i : ι) (l : List α) :
    (∃ j, a ∈ update out i l j) ↔ a ∈ l ∨ ∃ j, j ≠ i ∧ a ∈ out j := by
  constructor
  · rintro ⟨j, hj⟩
    by_cases hji : j = i
    · subst hji
      rw [update_self] at hj
      exact .inl hj
    · rw [update_of_ne hji] at hj
      exact .inr ⟨j, hji, hj⟩
  · rintro (ha | ⟨j, hji, hj⟩)
    · exact ⟨i, by rwa [update_self]⟩
    · exact ⟨j, by rwa [update_of_ne hji]⟩

section View

/-- What the flags, the session table and what is under way between the two
processes say about the users. -/
structure View where
  sessions : Sessions
  active : Set String
  marked : Set String
  leaving : Set String

variable {v : View} {r r' : Reactor} {u s : String} {info : SessionInfo}

def Fits (u : String) : Prop := safeStrcpy credentialsSize u = u

/-- Some session of the table is authenticated as the user and not blacklisted. -/
def Online (m : Sessions) (u : String) : Prop := ∃ s info, m.sessions.find? s = some info ∧ Eligible u info

structure View.Agrees (v : View) : Prop where
  named : ∀ s info, v.sessions.sessions.find? s = some info →
    (info.isAuthenticated = true → info.username ≠ "") ∧ (info.username ≠ "" → Fits info.username)
  marked : ∀ u ∈ v.marked, u ≠ "" ∧ Fits u ∧ u ∈ v.active
  online : ∀ u, Online v.sessions u → u ∈ v.active
  active : ∀ u ∈ v.active, u ≠ "" ∧ (u ∈ v.marked ∨ Online v.sessions u ∨ u ∈ v.leaving)

variable {leaving : Set String}

theorem View.Agrees.closes (h : v.Agrees) (hv : v.sessions = r.sessions) (hcloses : Closes r r')
    (hleaving : ∀ u, (u ∈ v.leaving ∨ ∃ new, r'.requests = r.requests ++ new ∧
      ∃ req ∈ new, req.isDisconnect = true ∧ req.username = u) → u ∈ leaving) :
    View.Agrees ⟨r'.sessions, v.active, v.marked, leaving⟩ := by
  obtain ⟨new, hq, hlost⟩ := hcloses.requests
  refine ⟨fun s info' hinfo' => ?_, h.marked, ?_, fun u hu => ?_⟩
  · rcases hcloses.sessions s info' hinfo' with ⟨hauth, hempty⟩ | ⟨info, hinfo, hname, hauth, -⟩
    · rw [hauth, hempty]
      exact ⟨fun hc => absurd hc Bool.false_ne_true, fun hne => absurd rfl hne⟩
    · rw [hname, hauth]
      exact h.named s info (hv ▸ hinfo)
  · rintro u ⟨s, info', hinfo', hauth', hwelcome, rfl⟩
    rcases hcloses.sessions s info' hinfo' with ⟨hauth, -⟩ | ⟨info, hinfo, hname, hauth, hblack⟩
    · exact absurd (hauth.symm.trans hauth') Bool.false_ne_true
    · refine h.online _ ⟨s, info, hv ▸ hinfo, hauth.symm.trans hauth', ?_, hname.symm⟩
      by_contra hb
      rw [Bool.not_eq_false] at hb
      exact Bool.false_ne_true (hwelcome.symm.trans (hblack hb))
  · obtain ⟨hne, hmarked | ⟨s, info, hinfo, heligible⟩ | hleave⟩ := h.active u hu
    · exact ⟨hne, .inl hmarked⟩
    · obtain rfl : info.username = u := heligible.2.2
      refine ⟨hne, .inr ?_⟩
      rcases hlost s info (hv ▸ hinfo) heligible hne with ⟨info', hinfo', heligible'⟩ | ⟨req, hmem, hd, hname⟩
      · exact .inl ⟨s, info', hinfo', heligible'⟩
      · rw [(h.named s info hinfo).2 hne] at hname
        exact .inr (hleaving _ (.inr ⟨new, hq, req, hmem, hd, hname⟩))
    · exact ⟨hne, .inr (.inr (hleaving u (.inl hleave)))⟩

theorem View.Agrees.mark (h : v.Agrees) (hu : u ∈ v.marked) (hinfo : v.sessions.sessions.find? s = some info)
    (hfree : info.username = "" ∨ info.username = u) (hwelcome : info.isBlacklisted = false) (clientType : String)
    {marked : Set String} (hmarked : ∀ w ∈ marked, w ∈ v.marked) (hrest : ∀ w ∈ v.marked, w ∈ marked ∨ w = u) :
    View.Agrees ⟨markAuthenticated v.sessions s clientType u, v.active, marked, v.leaving⟩ := by
  obtain ⟨hne, hfits, hactive⟩ := h.marked u hu
  have hself := find?_markAuthenticated_self hinfo clientType u
  have hothers (s' : String) (hs : s' ≠ s) : (markAuthenticated v.sessions s clientType u).sessions.find? s' =
      v.sessions.sessions.find? s' := find?_markAuthenticated_of_ne hs _ _
  have honline : Online (markAuthenticated v.sessions s clientType u) u := ⟨s, _, hself, rfl, hwelcome, rfl⟩
  refine ⟨fun s₁ info₁ hinfo₁ => ?_, fun w hw => h.marked w (hmarked w hw), ?_, fun w hw => ?_⟩
  · by_cases hs : s₁ = s
    · subst hs
      rw [← Option.some.inj (hself.symm.trans hinfo₁)]
      exact ⟨fun _ => hne, fun _ => hfits⟩
    · exact h.named s₁ info₁ (hothers s₁ hs ▸ hinfo₁)
  · rintro w ⟨s₁, info₁, hinfo₁, heligible⟩
    by_cases hs : s₁ = s
    · subst hs
      obtain rfl := Option.some.inj (hself.symm.trans hinfo₁)
      exact heligible.2.2 ▸ hactive
    · exact h.online w ⟨s₁, info₁, hothers s₁ hs ▸ hinfo₁, heligible⟩
  · obtain ⟨hne', hw' | ⟨s₁, info₁, hinfo₁, heligible⟩ | hleave⟩ := h.active w hw
    · rcases hrest w hw' with hw' | rfl
      · exact ⟨hne', .inl hw'⟩
      · exact ⟨hne', .inr (.inl honline)⟩
    · refine ⟨hne', .inr (.inl ?_)⟩
      by_cases hs : s₁ = s
      · subst hs
        obtain rfl := Option.some.inj (hinfo.symm.trans hinfo₁)
        rcases hfree with hempty | hsame
        · exact absurd (heligible.2.2.symm.trans hempty) hne'
        · exact (heligible.2.2.symm.trans hsame) ▸ honline
      · exact ⟨s₁, info₁, (hothers s₁ hs).trans hinfo₁, heligible⟩
    · exact ⟨hne', .inr (.inr hleave)⟩

theorem View.Agrees.login (h : v.Agrees) (hne : u ≠ "") (hfits : Fits u) :
    View.Agrees ⟨v.sessions, insert u v.active, insert u v.marked, v.leaving⟩ := by
  refine ⟨h.named, fun w hw => ?_, fun w hw => Set.mem_insert_of_mem _ (h.online w hw), fun w hw => ?_⟩
  · rcases hw with rfl | hw
    · exact ⟨hne, hfits, Set.mem_insert _ _⟩
    · obtain ⟨hne', hfits', hactive'⟩ := h.marked w hw
      exact ⟨hne', hfits', Set.mem_insert_of_mem _ hactive'⟩
  · rcases hw with rfl | hw
    · exact ⟨hne, .inl (Set.mem_insert _ _)⟩
    · obtain ⟨hne', hrest⟩ := h.active w hw
      exact ⟨hne', hrest.imp_left (Set.mem_insert_of_mem _)⟩

theorem View.Agrees.leave (h : v.Agrees) (hmarked : u ∉ v.marked) (honline : ¬ Online v.sessions u)
    (hrest : ∀ w ∈ v.leaving, w ∈ leaving ∨ w = u) : View.Agrees ⟨v.sessions, v.active \ {u}, v.marked, leaving⟩ := by
  refine ⟨h.named, fun w hw => ?_, fun w hw => ⟨h.online w hw, ?_⟩, fun w hw => ?_⟩
  · obtain ⟨hne, hfits, hactive⟩ := h.marked w hw
    exact ⟨hne, hfits, hactive, fun he => hmarked (Set.mem_singleton_iff.mp he ▸ hw)⟩
  · exact fun he => honline (Set.mem_singleton_iff.mp he ▸ hw)
  · obtain ⟨hne, hmarked' | honline' | hl⟩ := h.active w hw.1
    · exact ⟨hne, .inl hmarked'⟩
    · exact ⟨hne, .inr (.inl honline')⟩
    · exact ⟨hne, .inr (.inr ((hrest w hl).resolve_right hw.2))⟩

end View

variable {ι : Type} [DecidableEq ι] {req : RequestSlot} {σ σ' : System ι} {i : ι} {u : String} {row : Credential}

def marksOf (l : List Slot) : List String := (l.filter fun resp => resp.command = .markAuthenticated).map Slot.username

def out : Phase → List Slot
  | .pushing responses => responses
  | _ => []

def hand : Phase → List RequestSlot
  | .taken _ req => [req]
  | .acknowledged _ req => [req]
  | _ => []

def Pending (σ : System ι) (req : RequestSlot) : Prop :=
  req ∈ σ.reactor.requests.drop σ.reactor.taken ∨
    ∃ i, req ∈ hand (σ.threads i)

def Active (c : Credentials) (u : String) : Prop := ∃ row, c.find? u = some row ∧ row.isActive = true

def view (σ : System ι) : View where
  sessions := σ.reactor.sessions
  active := {u | Active σ.store.credentials u}
  marked := {u | u ∈ marksOf σ.responses ∨ ∃ i, u ∈ marksOf (out (σ.threads i))}
  leaving := {u | ∃ req, Pending σ req ∧ req.isDisconnect = true ∧ req.username = u}

structure Inv (σ : System ι) : Prop where
  sound : Sound σ.reactor.sessions
  taken : σ.reactor.taken ≤ σ.reactor.requests.length
  polite : ∀ resp, (resp ∈ σ.responses ∨ ∃ i, resp ∈ out (σ.threads i)) → resp.command ≠ .blacklist
  agrees : (view σ).Agrees

theorem marksOf_append (l l' : List Slot) : marksOf (l ++ l') = marksOf l ++ marksOf l' := by
  rw [marksOf, filter_append, map_append]
  rfl

theorem marksOf_eq_nil {l : List Slot} (h : ∀ resp ∈ l, resp.command ≠ .markAuthenticated) : marksOf l = [] := by
  rw [marksOf, filter_eq_nil_iff.mpr]
  · rfl
  · exact fun resp hresp => by simpa using h resp hresp

theorem marksOf_out_update (threads : ι → Phase) (i : ι) (phase : Phase) :
    (fun j => marksOf (out (update threads i phase j))) =
      update (fun j => marksOf (out (threads j))) i (marksOf (out phase)) := by
  funext j
  exact apply_update (fun _ p => marksOf (out p)) threads i phase j

theorem hand_update (threads : ι → Phase) (i : ι) (phase : Phase) : (fun j => hand (update threads i phase j))
    = update (fun j => hand (threads j)) i (hand phase) := by
  funext j
  exact apply_update (fun _ p => hand p) threads i phase j

theorem pending_update {phase : Phase} (hthreads : σ'.threads = update σ.threads i phase) (req : RequestSlot) :
    Pending σ' req ↔ req ∈ σ'.reactor.requests.drop σ'.reactor.taken ∨ req ∈ hand phase ∨
      ∃ j, j ≠ i ∧ req ∈ hand (σ.threads j) := by
  rw [Pending, hthreads, ← exists_mem_update (fun j => hand (σ.threads j)) i, ← hand_update]

theorem pending_iff (i : ι) (req : RequestSlot) : Pending σ req ↔ req ∈ σ.reactor.requests.drop σ.reactor.taken ∨
    req ∈ hand (σ.threads i) ∨ ∃ j, j ≠ i ∧ req ∈ hand (σ.threads j) :=
  pending_update (update_eq_self i σ.threads).symm req

theorem mem_marked_update {phase : Phase} (hthreads : σ'.threads = update σ.threads i phase) (u : String) :
    u ∈ (view σ').marked ↔ u ∈ marksOf σ'.responses ∨ u ∈ marksOf (out phase) ∨
      ∃ j, j ≠ i ∧ u ∈ marksOf (out (σ.threads j)) := by
  change (_ ∨ ∃ j, u ∈ marksOf (out (σ'.threads j))) ↔ _
  rw [hthreads, ← exists_mem_update (fun j => marksOf (out (σ.threads j))) i, ← marksOf_out_update]

theorem mem_marked_iff (i : ι) (u : String) : u ∈ (view σ).marked ↔ u ∈ marksOf σ.responses ∨
    u ∈ marksOf (out (σ.threads i)) ∨ ∃ j, j ≠ i ∧ u ∈ marksOf (out (σ.threads j)) :=
  mem_marked_update (update_eq_self i σ.threads).symm u

omit [DecidableEq ι] in
theorem view_eq (hsessions : σ'.reactor.sessions = σ.reactor.sessions)
    (hcredentials : σ'.store.credentials = σ.store.credentials)
    (hmarked : ∀ u, u ∈ (view σ').marked ↔ u ∈ (view σ).marked)
    (hpending : ∀ req, req.isDisconnect = true → (Pending σ' req ↔ Pending σ req)) : view σ' = view σ := by
  have hleaving : (view σ').leaving = (view σ).leaving := by
    ext u
    refine exists_congr fun req => ?_
    rw [and_congr_left fun hreq => hpending req hreq.1]
  rw [View.mk.injEq]
  refine ⟨hsessions, ?_, Set.ext hmarked, hleaving⟩
  change {u | Active σ'.store.credentials u} = _
  rw [hcredentials]
  rfl

omit [DecidableEq ι] in
theorem pending_congr {r : Reactor} {req : RequestSlot} {new : List RequestSlot}
    (h : σ.reactor.taken ≤ σ.reactor.requests.length)
    (hq : r.requests = σ.reactor.requests ++ new) (ht : r.taken = σ.reactor.taken) :
    Pending { σ with reactor := r } req ↔ Pending σ req ∨ req ∈ new := by
  have hdrop : r.requests.drop r.taken = σ.reactor.requests.drop σ.reactor.taken ++ new := by
    rw [ht, hq, drop_append_of_le_length h]
  rw [Pending, hdrop, mem_append]
  exact or_right_comm

omit [DecidableEq ι] in
theorem Inv.reactor (h : Inv σ) {r : Reactor} (hcloses : Closes σ.reactor r) (hsound : Sound r.sessions) :
    Inv { σ with reactor := r } := by
  obtain ⟨new, hq, -⟩ := hcloses.requests
  have htaken := hcloses.taken
  refine ⟨hsound, ?_, h.polite, h.agrees.closes rfl hcloses fun u => ?_⟩
  · change r.taken ≤ r.requests.length
    rw [htaken, hq, length_append]
    exact Nat.le_add_right_of_le h.taken
  · simp only [view, Set.mem_ofPred_eq, pending_congr h.taken hq htaken, or_and_right, exists_or, hq,
      append_cancel_left_eq, exists_eq_left', imp_self]

theorem Inv.of_update (h : Inv σ) {phase : Phase} {more : List Slot}
    (hsessions : σ'.reactor.sessions = σ.reactor.sessions) (htaken : σ'.reactor.taken ≤ σ'.reactor.requests.length)
    (hresponses : σ'.responses = σ.responses ++ more) (hthreads : σ'.threads = update σ.threads i phase)
    (hpolite : ∀ resp ∈ more ++ out phase, resp.command ≠ .blacklist) (hagrees : (view σ').Agrees) : Inv σ' := by
  refine ⟨hsessions ▸ h.sound, htaken, ?_, hagrees⟩
  rintro resp (hresp | ⟨j, hresp⟩)
  · rw [hresponses] at hresp
    rcases mem_append.mp hresp with hresp | hresp
    · exact h.polite resp (.inl hresp)
    · exact hpolite resp (mem_append_left _ hresp)
  · rw [hthreads] at hresp
    by_cases hj : j = i
    · subst hj
      rw [update_self] at hresp
      exact hpolite resp (mem_append_right _ hresp)
    · rw [update_of_ne hj] at hresp
      exact h.polite resp (.inr ⟨j, hresp⟩)

theorem Inv.move (h : Inv σ) (σ' : System ι) (i : ι) (phase : Phase) (more : List Slot)
    (hsessions : σ'.reactor.sessions = σ.reactor.sessions) (htaken : σ'.reactor.taken ≤ σ'.reactor.requests.length)
    (hcredentials : σ'.store.credentials = σ.store.credentials) (hresponses : σ'.responses = σ.responses ++ more)
    (hthreads : σ'.threads = update σ.threads i phase)
    (hmarks : marksOf (out (σ.threads i)) = marksOf more ++ marksOf (out phase))
    (hpolite : ∀ resp ∈ more ++ out phase, resp.command ≠ .blacklist)
    (hpending : ∀ req, req.isDisconnect = true → (Pending σ' req ↔ Pending σ req)) : Inv σ' := by
  refine h.of_update hsessions htaken hresponses hthreads hpolite ?_
  rw [view_eq hsessions hcredentials (fun u => ?_) hpending]
  · exact h.agrees
  · rw [mem_marked_update hthreads, mem_marked_iff i, hresponses, marksOf_append, hmarks, mem_append,
      mem_append, or_assoc, or_assoc]

end Logistics.ActiveFlags
