import Logistics.Reachability
import Logistics.TcpSession

namespace Logistics.EventLoop

open List Function
open TcpSession (Mask)

variable {κ σ : Type}

structure Registration (κ : Type) where
  number : Nat
  callback : κ
  deriving DecidableEq

structure Loop (κ : Type) where
  callbacks : Nat → Option (Registration κ)
  registered : Nat
  numbered : ∀ fd reg, callbacks fd = some reg → reg.number < registered

inductive Action (κ : Type)
  | addFd (fd : Nat) (callback : κ)
  | removeFd (fd : Nat)

def Action.fd : Action κ → Nat
  | .addFd fd _ => fd
  | .removeFd fd => fd

def Loop.addFd (l : Loop κ) (fd : Nat) (callback : κ) : Option (Loop κ) :=
  if (l.callbacks fd).isSome then none
  else some
    { callbacks := update l.callbacks fd (some ⟨l.registered, callback⟩)
      registered := l.registered + 1
      numbered := by
        intro fd' reg h
        by_cases hfd : fd' = fd
        · subst hfd
          rw [update_self] at h
          cases h
          exact Nat.lt_succ_self _
        · rw [update_of_ne hfd] at h
          exact (l.numbered fd' reg h).trans (Nat.lt_succ_self _) }

def Loop.removeFd (l : Loop κ) (fd : Nat) : Loop κ where
  callbacks := update l.callbacks fd none
  registered := l.registered
  numbered := by
    intro fd' reg h
    by_cases hfd : fd' = fd
    · subst hfd
      rw [update_self] at h
      cases h
    · rw [update_of_ne hfd] at h
      exact l.numbered fd' reg h

variable {fd : Nat} {callback : κ} {l : Loop κ}

theorem callbacks_addFd {l' : Loop κ} (h : l.addFd fd callback = some l') (fd' : Nat) :
    l'.callbacks fd' = if fd' = fd then some ⟨l.registered, callback⟩ else l.callbacks fd' := by
  rw [Loop.addFd] at h
  split at h
  · cases h
  · obtain rfl := Option.some.inj h
    exact update_apply _ _ _ _

theorem registered_addFd {l' : Loop κ} (h : l.addFd fd callback = some l') : l'.registered = l.registered + 1 := by
  rw [Loop.addFd] at h
  split at h
  · cases h
  · rw [← Option.some.inj h]

theorem callbacks_removeFd (l : Loop κ) (fd fd' : Nat) :
    (l.removeFd fd).callbacks fd' = if fd' = fd then none else l.callbacks fd' :=
  update_apply _ _ _ _

structure Turn (κ σ : Type) where
  loop : Loop κ
  world : σ
  running : Bool
  performed : List (Action κ)
  delivered : List (Nat × Registration κ)

structure Event where
  fd : Nat
  mask : Mask

def Turn.act (t : Turn κ σ) (action : Action κ) : Turn κ σ :=
  if t.running then
    match action with
    | .addFd fd callback =>
      match t.loop.addFd fd callback with
      | none => { t with running := false }
      | some l => { t with loop := l, performed := t.performed ++ [action] }
    | .removeFd fd => { t with loop := t.loop.removeFd fd, performed := t.performed ++ [action] }
  else t

def Turn.perform (t : Turn κ σ) (result : σ × List (Action κ)) : Turn κ σ :=
  result.2.foldl act { t with world := result.1 }

/-- What the callbacks and the posted functions do is given by what they make of the
rest of the process and by their calls of `add_fd` and `remove_fd`. -/
structure Program (κ σ : Type) where
  wakeupFd : Nat
  handle : κ → Mask → σ → σ × List (Action κ)
  runPosted : σ → σ × List (Action κ)

variable (p : Program κ σ)

def Turn.dispatch (t : Turn κ σ) (ev : Event) : Turn κ σ :=
  if t.running then
    if ev.fd = p.wakeupFd then t.perform (p.runPosted t.world)
    else
      match t.loop.callbacks ev.fd with
      | none => t
      | some reg =>
        perform { t with delivered := t.delivered ++ [(ev.fd, reg)] } (p.handle reg.callback ev.mask t.world)
  else t

def waited (l : Loop κ) (world : σ) : Turn κ σ := ⟨l, world, true, [], []⟩

def process (l : Loop κ) (world : σ) (events : List Event) : Turn κ σ := events.foldl (Turn.dispatch p) (waited l world)

def Readded (actions : List (Action κ)) (fd : Nat) : Prop :=
  ∃ callback, (actions.filter fun action => action.fd = fd).getLast? = some (.addFd fd callback)

theorem readded_append_of_ne {actions : List (Action κ)} {action : Action κ} (h : action.fd ≠ fd) :
    Readded (actions ++ [action]) fd ↔ Readded actions fd := by
  rw [Readded, filter_append, filter_cons_of_neg (by simpa using h), filter_nil, append_nil,
    Readded]

theorem readded_addFd (actions : List (Action κ)) (fd : Nat) (callback : κ) :
    Readded (actions ++ [.addFd fd callback]) fd := by
  refine ⟨callback, ?_⟩
  rw [filter_append, filter_cons_of_pos (by simp [Action.fd]), filter_nil, getLast?_concat]

theorem not_readded_removeFd (actions : List (Action κ)) (fd : Nat) : ¬ Readded (actions ++ [.removeFd fd]) fd := by
  rintro ⟨callback, h⟩
  rw [filter_append, filter_cons_of_pos (by simp [Action.fd]), filter_nil, getLast?_concat] at h
  cases h

variable {p} {l₀ : Loop κ} {t : Turn κ σ}

structure Since (l₀ : Loop κ) (t : Turn κ σ) : Prop where
  registered_le : l₀.registered ≤ t.loop.registered
  old : ∀ fd reg, t.loop.callbacks fd = some reg → reg.number < l₀.registered → l₀.callbacks fd = some reg
  new_iff : ∀ fd, Readded t.performed fd ↔ ∃ reg, t.loop.callbacks fd = some reg ∧ l₀.registered ≤ reg.number

theorem since_waited (l : Loop κ) (world : σ) : Since l (waited l world) := by
  refine ⟨Nat.le_refl _, fun _ _ h _ => h, fun fd => ?_⟩
  constructor
  · rintro ⟨callback, h⟩
    cases h
  · rintro ⟨reg, h, hle⟩
    exact absurd (l.numbered fd reg h) (Nat.not_lt.mpr hle)

theorem Since.congr {t' : Turn κ σ} (h : Since l₀ t) (hl : t'.loop = t.loop) (hp : t'.performed = t.performed) :
    Since l₀ t' := by
  obtain ⟨hle, hold, hnew⟩ := h
  exact ⟨by rwa [hl], by rwa [hl], by rwa [hl, hp]⟩

theorem Since.addFd (h : Since l₀ t) (hl : t.loop.addFd fd callback = some l) :
    Since l₀ { t with loop := l, performed := t.performed ++ [.addFd fd callback] } := by
  have hle := h.registered_le
  refine ⟨hle.trans (registered_addFd hl ▸ Nat.le_succ _), fun fd' reg hreg hlt => ?_, fun fd' => ?_⟩
  · rw [callbacks_addFd hl] at hreg
    split at hreg
    · cases hreg
      exact absurd hle (Nat.not_le.mpr hlt)
    · exact h.old fd' reg hreg hlt
  · dsimp only
    rw [callbacks_addFd hl]
    split
    · next hfd =>
      rw [hfd]
      exact iff_of_true (readded_addFd _ _ _) ⟨_, rfl, hle⟩
    · next hfd =>
      rw [readded_append_of_ne (Ne.symm hfd)]
      exact h.new_iff fd'

theorem Since.removeFd (h : Since l₀ t) (fd : Nat) :
    Since l₀ { t with loop := t.loop.removeFd fd, performed := t.performed ++ [.removeFd fd] } := by
  refine ⟨h.registered_le, fun fd' reg hreg hlt => ?_, fun fd' => ?_⟩
  · rw [callbacks_removeFd] at hreg
    split at hreg
    · cases hreg
    · exact h.old fd' reg hreg hlt
  · dsimp only
    rw [callbacks_removeFd]
    split
    · next hfd =>
      rw [hfd]
      exact iff_of_false (not_readded_removeFd _ _) nofun
    · next hfd =>
      rw [readded_append_of_ne (Ne.symm hfd)]
      exact h.new_iff fd'

theorem Since.act (h : Since l₀ t) (action : Action κ) : Since l₀ (t.act action) := by
  unfold Turn.act
  split
  · split
    · split
      · exact h.congr rfl rfl
      · next hl => exact h.addFd hl
    · exact h.removeFd _
  · exact h

theorem delivered_act (t : Turn κ σ) (action : Action κ) : (t.act action).delivered = t.delivered := by
  unfold Turn.act
  split
  · split
    · split <;> rfl
    · rfl
  · rfl

theorem Since.perform (h : Since l₀ t) (result : σ × List (Action κ)) : Since l₀ (t.perform result) := by
  have hfold (actions : List (Action κ)) (t : Turn κ σ) (h : Since l₀ t) : Since l₀ (actions.foldl Turn.act t) := by
    induction actions generalizing t with
    | nil => exact h
    | cons action actions ih => exact ih _ (h.act action)
  exact hfold _ _ (h.congr rfl rfl)

theorem delivered_perform (result : σ × List (Action κ)) : (t.perform result).delivered = t.delivered := by
  have hfold (actions : List (Action κ)) (t : Turn κ σ) : (actions.foldl Turn.act t).delivered = t.delivered := by
    induction actions generalizing t with
    | nil => rfl
    | cons action actions ih => rw [foldl_cons, ih, delivered_act]
  exact hfold _ _

theorem Since.dispatch (h : Since l₀ t) (ev : Event) : Since l₀ (t.dispatch p ev) := by
  rw [Turn.dispatch]
  split
  · split
    · exact h.perform _
    · split
      · exact h
      · apply Since.perform
        exact h.congr rfl rfl
  · exact h

def Delivered (l₀ : Loop κ) (t : Turn κ σ) : Prop := ∀ d ∈ t.delivered, l₀.callbacks d.1 = some d.2

/-- When the turn of an event comes, its descriptor is not one that a callback of the
batch has registered. -/
def InPlace (p : Program κ σ) (t : Turn κ σ) (ev : Event) : Prop :=
  t.running = true → ev.fd ≠ p.wakeupFd → ¬ Readded t.performed ev.fd

theorem delivered_dispatch_iff (h : Since l₀ t) (hd : Delivered l₀ t) (ev : Event) :
    Delivered l₀ (t.dispatch p ev) ↔ InPlace p t ev := by
  rw [Turn.dispatch]
  split
  · next hrunning =>
    split
    · next hfd =>
      rw [Delivered, delivered_perform]
      exact iff_of_true hd fun _ hne => absurd hfd hne
    · next hfd =>
      have hplace : InPlace p t ev ↔ ¬ Readded t.performed ev.fd :=
        ⟨fun hp => hp hrunning hfd, fun hp _ _ => hp⟩
      rw [hplace, h.new_iff]
      split
      · next hnone =>
        refine iff_of_true hd ?_
        rintro ⟨reg, hreg, -⟩
        rw [hnone] at hreg
        cases hreg
      · next reg hreg =>
        rw [Delivered, delivered_perform]
        constructor
        · rintro hall ⟨reg', hreg', hle⟩
          obtain rfl := Option.some.inj (hreg.symm.trans hreg')
          have hold := hall (ev.fd, reg) (mem_append_right _ (mem_singleton.mpr rfl))
          exact absurd (l₀.numbered _ _ hold) (Nat.not_lt.mpr hle)
        · intro hnew d hd'
          rcases mem_append.mp hd' with hd' | hd'
          · exact hd d hd'
          · rw [mem_singleton.mp hd']
            exact h.old _ _ hreg (Nat.not_le.mp fun hle => hnew ⟨reg, hreg, hle⟩)
  · next hrunning => exact iff_of_true hd fun hr => absurd hr hrunning

/-- Every event of a batch reaches the registration it was reported for exactly when none is
replaced before its turn. -/
theorem events_reach_registration_iff (p : Program κ σ) (l : Loop κ) (world : σ) (events : List Event) :
    (∀ before, before <+: events → Delivered l (process p l world before)) ↔
      ∀ before ev, before ++ [ev] <+: events → InPlace p (process p l world before) ev :=
  Reachability.prefix_iff (I := Since l) (since_waited l world) (fun _ ev h => h.dispatch ev)
    (fun _ h => absurd h not_mem_nil) (fun _ ev h hd => delivered_dispatch_iff h hd ev) events

inductive Callback
  | listener
  | timerfd
  | responses
  | tcpSession (session : Nat)
  deriving DecidableEq

/-- What decides about the descriptors: those that the process has open, the sessions
that are not closed with their descriptors, and what the next callbacks find (the
connections to be accepted, the sessions that a due timer or a response ends, and
those whose recv reports the end of the connection). -/
structure Connections where
  inUse : List Nat
  sessions : List (Nat × Nat)
  sessionCounter : Nat
  backlog : Nat
  timedOut : List Nat
  dismissed : List Nat
  shutDown : List Nat

variable (c : Connections)

def accept4 : Nat := ((range (c.inUse.length + 1)).find? fun fd => fd ∉ c.inUse).getD c.inUse.length

def close (session : Nat) : Connections × List (Action Callback) :=
  match c.sessions.lookup session with
  | none => (c, [])
  | some fd =>
    ({ c with inUse := c.inUse.erase fd, sessions := c.sessions.filter fun s => s.1 ≠ session }, [.removeFd fd])

def closeAll (c : Connections) : List Nat → Connections × List (Action Callback)
  | [] => (c, [])
  | session :: sessions =>
    let closed := close c session
    let rest := closeAll closed.1 sessions
    (rest.1, closed.2 ++ rest.2)

def accept : Connections × List (Action Callback) :=
  let fd := accept4 c
  let session := c.sessionCounter + 1
  ({ c with inUse := fd :: c.inUse, sessions := (session, fd) :: c.sessions, sessionCounter := session },
    [.addFd fd (.tcpSession session)])

def onAccept (c : Connections) : Nat → Connections × List (Action Callback)
  | 0 => ({ c with backlog := 0 }, [])
  | backlog + 1 =>
    let accepted := accept c
    let rest := onAccept accepted.1 backlog
    (rest.1, accepted.2 ++ rest.2)

def handle (callback : Callback) (mask : TcpSession.Mask) (c : Connections) : Connections × List (Action Callback) :=
  match callback with
  | .listener => onAccept c c.backlog
  | .timerfd => closeAll { c with timedOut := [] } c.timedOut
  | .responses => closeAll { c with dismissed := [] } c.dismissed
  | .tcpSession session =>
    if mask.epollhup ∨ mask.epollerr ∨ (mask.epollin ∧ session ∈ c.shutDown) then close c session else (c, [])

def server (wakeupFd : Nat) : Program Callback Connections := ⟨wakeupFd, handle, fun c => (c, [])⟩

def noCallbacks : Loop Callback := ⟨fun _ => none, 0, nofun⟩

def oneConnected : Connections := ⟨[0, 1, 2, 3, 4, 5, 6], [(1, 6)], 1, 1, [1], [], []⟩

def oneRegistered : Loop Callback :=
  ([.addFd 4 .listener, .addFd 5 .timerfd, .addFd 6 (.tcpSession 1)].foldl Turn.act
    (waited noCallbacks oneConnected)).loop

def staleHangup : List Event :=
  [⟨5, ⟨true, false, false, false⟩⟩, ⟨4, ⟨true, false, false, false⟩⟩, ⟨6, ⟨false, false, true, false⟩⟩]

theorem stale_event_closes_new_session : (oneRegistered.callbacks 6).map Registration.callback = some (.tcpSession 1) ∧
      (process (server 3) oneRegistered oneConnected staleHangup).delivered.map (fun d => (d.1, d.2.callback)) =
        [(5, .timerfd), (4, .listener), (6, .tcpSession 2)] ∧
      (process (server 3) oneRegistered oneConnected staleHangup).world.sessions = [] := by
  decide +kernel

end Logistics.EventLoop
