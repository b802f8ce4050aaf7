import Logistics.Reachability
import Logistics.TimerHeap

namespace Logistics.TimerHeap

open KeyedTable RowVersions TimerManager List Function Option

variable {γ : Type} {m : Manager γ} {n : Node γ} {reads : Reads} {op : Op γ} {t : Int}

def Op.started (m : Manager γ) (reads : Reads) : Op γ → Option (Node γ)
  | .startAck sessionId msgTimestamp timeout callback =>
    some (newNode m ⟨.ack, sessionId, msgTimestamp⟩ timeout reads.now ⟨m.allocated, callback⟩)
  | .startKeepalive sessionId timeout callback =>
    some (newNode m ⟨.keepalive, sessionId, ""⟩ timeout reads.now ⟨m.allocated, callback⟩)
  | .resetKeepalive sessionId =>
    match m.keepaliveTimeouts sessionId, m.keepaliveCallbacks sessionId with
    | some timeout, some callback => some (newNode m ⟨.keepalive, sessionId, ""⟩ timeout reads.now callback)
    | _, _ => none
  | .cancelAck _ _ | .cancelKeepalive _ | .clearSession _ => none

def Op.Cancels : Op γ → TimerKey → Prop
  | .cancelAck sessionId msgTimestamp, k => k = ⟨.ack, sessionId, msgTimestamp⟩
  | .cancelKeepalive sessionId, k => k = ⟨.keepalive, sessionId, ""⟩
  | .clearSession sessionId, k => k.session = sessionId
  | .startAck _ _ _ _, _ | .startKeepalive _ _ _, _ | .resetKeepalive _, _ => False

structure Applied (m : Manager γ) (reads : Reads) (op : Op γ) (m' : Manager γ) : Prop where
  linked : Linked m'
  heap : ∀ n, n ∈ m'.heap ↔ op.started m reads = some n ∨
    n ∈ m.heap ∧ ¬ op.Cancels n.key ∧ ∀ s, op.started m reads = some s → n.key ≠ s.key
  allocated : m'.allocated = m.allocated + (op.started m reads).toList.length
  toFire : m'.toFire = m.toFire
  fired : m'.fired = m.fired

variable {key : TimerKey} {callback : Registered γ} {cancelledAt timeout armedAt : Int} {m' : Manager γ}

theorem applied_insertTimer (h : Linked m')
    (hstarted : op.started m reads = some (newNode m key timeout reads.now callback))
    (hcancels : ∀ k, ¬ op.Cancels k) (hheap : ∀ n, n ∈ m'.heap ∧ n.key ≠ key ↔ n ∈ m.heap ∧ n.key ≠ key)
    (hallocated : m'.allocated = m.allocated) (htoFire : m'.toFire = m.toFire) (hfired : m'.fired = m.fired) :
    Applied m reads op (m'.insertTimer key timeout callback cancelledAt reads.now armedAt) where
  linked := h.insertTimer
  heap n := by
    rw [h.mem_insertTimer, hheap, hstarted, newNode, hallocated, some_inj, eq_comm]
    refine or_congr Iff.rfl (and_congr_right fun _ => ?_)
    constructor
    · rintro hne
      exact ⟨hcancels _, by rintro s ⟨⟩; exact hne⟩
    · rintro ⟨-, hne⟩
      exact hne _ rfl
  allocated := by rw [allocated_insertTimer, hallocated, hstarted]; rfl
  toFire := (sameRest_cancelTimer m' key cancelledAt).toFire.trans htoFire
  fired := (sameRest_cancelTimer m' key cancelledAt).fired.trans hfired

variable {now : Int}

theorem applied_cancelTimer (h : Linked m) (hstarted : op.started m reads = none)
    (hcancels : ∀ k, op.Cancels k ↔ k = key) : Applied m reads op (m.cancelTimer key now).2 where
  linked := h.cancelTimer key now
  heap n := by
    rw [h.heap_cancelTimer, hstarted, hcancels]
    simp
  allocated := by rw [(sameRest_cancelTimer m key now).allocated, hstarted]; rfl
  toFire := (sameRest_cancelTimer m key now).toFire
  fired := (sameRest_cancelTimer m key now).fired

theorem Linked.forgetKeepalive (h : Linked m) (sessionId : String) : Linked (m.forgetKeepalive sessionId) :=
  ⟨h.sorted, h.ids, h.below, h.index⟩

theorem Applied.forgetKeepalive (h : Applied m reads op m') (sessionId : String) :
    Applied m reads op (m'.forgetKeepalive sessionId) :=
  ⟨h.linked.forgetKeepalive sessionId, h.heap, h.allocated, h.toFire, h.fired⟩

theorem applied_startKeepaliveTimer (h : Linked m) (sessionId : String) (timeout : Int) (callback : γ) :
    Applied m reads (.startKeepalive sessionId timeout callback)
      (m.startKeepaliveTimer sessionId timeout callback reads) := by
  have hlinked := h.cancelTimer ⟨.keepalive, sessionId, ""⟩ (reads.cancel 0)
  have hrest := sameRest_cancelTimer m ⟨.keepalive, sessionId, ""⟩ (reads.cancel 0)
  apply applied_insertTimer
  case h => exact ⟨hlinked.sorted, hlinked.ids, hlinked.below, hlinked.index⟩
  case hstarted => rfl
  case hcancels => exact fun _ => id
  case hheap =>
    intro n
    change n ∈ (m.cancelTimer ⟨.keepalive, sessionId, ""⟩ (reads.cancel 0)).2.heap ∧ _ ↔ _
    rw [h.heap_cancelTimer, mem_filter, decide_eq_true_eq, and_assoc, and_self]
  case hallocated => exact hrest.allocated
  case htoFire => exact hrest.toFire
  case hfired => exact hrest.fired

variable {k : TimerKey}

theorem mem_index_keys : k ∈ m.index.rows.map Prod.fst ↔ m.index.find? k ≠ none := by
  rw [ne_eq, Table.find?_eq_none, List.mem_map]
  push Not
  rfl

theorem applied_clearSessionTimers (h : Linked m) (sessionId : String) :
    Applied m reads (.clearSession sessionId) (m.clearSessionTimers sessionId reads) := by
  obtain ⟨hlinked, hrest, hheap⟩ :=
    h.cancelEach ((m.index.rows.map Prod.fst).filter fun key => key.session = sessionId) reads.cancel
  apply Applied.forgetKeepalive
  refine ⟨hlinked, fun n => ?_, hrest.allocated, hrest.toFire, hrest.fired⟩
  rw [hheap, mem_filter, decide_eq_true_eq, mem_filter, decide_eq_true_eq, mem_index_keys]
  constructor
  · rintro ⟨hn, hnot⟩
    refine .inr ⟨hn, fun hsession => hnot ⟨fun hnone => ?_, hsession⟩, by rintro s ⟨⟩⟩
    exact h.find?_eq_none.mp hnone n hn rfl
  · rintro (⟨⟨⟩⟩ | ⟨hn, hsession, -⟩)
    exact ⟨hn, fun hmem => hsession hmem.2⟩

theorem applied_apply (h : Linked m) (reads : Reads) (op : Op γ) : Applied m reads op (m.apply reads op) := by
  cases op with
  | startAck sessionId msgTimestamp timeout callback =>
    exact applied_insertTimer h rfl (fun _ => id) (fun _ => Iff.rfl) rfl rfl rfl
  | cancelAck sessionId msgTimestamp => exact applied_cancelTimer h rfl fun _ => Iff.rfl
  | startKeepalive sessionId timeout callback => exact applied_startKeepaliveTimer h sessionId timeout callback
  | resetKeepalive sessionId =>
    rw [Manager.apply, Manager.resetKeepaliveTimer]
    split
    next timeout callback htimeout hcallback =>
      refine applied_insertTimer h ?_ (fun _ => id) (fun _ => Iff.rfl) rfl rfl rfl
      rw [Op.started, htimeout, hcallback]
    next hnone =>
      have hstarted : Op.started m reads (.resetKeepalive sessionId) = none := by
        rw [Op.started]
        split
        next timeout callback htimeout hcallback => exact absurd hcallback (hnone timeout callback htimeout)
        next => rfl
      refine ⟨h, fun n => ?_, by rw [hstarted]; rfl, rfl, rfl⟩
      rw [hstarted]
      simp [Op.Cancels]
  | cancelKeepalive sessionId => exact (applied_cancelTimer h rfl fun _ => Iff.rfl).forgetKeepalive sessionId
  | clearSession sessionId => exact applied_clearSessionTimers h sessionId

def Reads.Until (reads : Reads) (t : Int) : Prop := (∀ i, reads.cancel i ≤ t) ∧ reads.now ≤ t ∧ reads.arm ≤ t

theorem armedFor_apply (h : Linked m) (harmed : ArmedFor m t) (hreads : reads.Until t) (op : Op γ) :
    ArmedFor (m.apply reads op) t := by
  cases op with
  | startAck | startKeepalive => exact armedFor_insertTimer hreads.2.2
  | cancelAck | cancelKeepalive => exact armedFor_cancelTimer h harmed _ (hreads.1 0)
  | resetKeepalive sessionId =>
    rw [Manager.apply, Manager.resetKeepaliveTimer]
    split
    · exact armedFor_insertTimer hreads.2.2
    · exact harmed
  | clearSession => exact armedFor_cancelEach h harmed _ hreads.1

theorem Linked.step (h : Linked m) (e : Event γ) : Linked (step m e) := by
  cases e with
  | call op reads => exact (applied_apply h reads op).linked
  | ready reads => exact h.onTimerfdReady
  | fire =>
    rw [TimerHeap.step, Manager.fire]
    split
    · exact h
    · exact ⟨h.sorted, h.ids, h.below, h.index⟩

theorem linked_start : Linked (Manager.start : Manager γ) where
  sorted := Pairwise.nil
  ids := nodup_nil
  below _ hn := absurd hn not_mem_nil
  index k id := by
    refine iff_of_false (fun h => ?_) ?_
    · cases h
    · rintro ⟨n, hn, -⟩
      cases hn

theorem linked_run (events : List (Event γ)) : Linked (events.foldl step .start) :=
  List.foldlRecOn events step linked_start fun _ h e _ => h.step e

/-- The purpose of the manager: a deadline and a callback for each key, and what a reset of
a session's keepalive timer starts. -/
@[ext]
structure Spec (γ : Type) where
  timers : TimerKey → Option (Int × γ)
  keepalive : String → Option (Int × γ)

namespace Spec

def start : Spec γ := ⟨fun _ => none, fun _ => none⟩

def set (s : Spec γ) (key : TimerKey) (now timeout : Int) (callback : γ) : Spec γ :=
  { s with timers := update s.timers key (some (now + timeout * 10 ^ 9, callback)) }

def apply (s : Spec γ) (now : Int) : Op γ → Spec γ
  | .startAck sessionId msgTimestamp timeout callback => s.set ⟨.ack, sessionId, msgTimestamp⟩ now timeout callback
  | .cancelAck sessionId msgTimestamp => { s with timers := update s.timers ⟨.ack, sessionId, msgTimestamp⟩ none }
  | .startKeepalive sessionId timeout callback =>
    { s.set ⟨.keepalive, sessionId, ""⟩ now timeout callback with
      keepalive := update s.keepalive sessionId (some (timeout, callback)) }
  | .resetKeepalive sessionId =>
    (s.keepalive sessionId).elim s fun kept => s.set ⟨.keepalive, sessionId, ""⟩ now kept.1 kept.2
  | .cancelKeepalive sessionId => ⟨update s.timers ⟨.keepalive, sessionId, ""⟩ none, update s.keepalive sessionId none⟩
  | .clearSession sessionId =>
    ⟨fun k => if k.session = sessionId then none else s.timers k, update s.keepalive sessionId none⟩

def step (s : Spec γ) : Event γ → Spec γ
  | .call op reads => s.apply reads.now op
  | .ready reads => { s with timers := fun k => (s.timers k).filter fun e => reads.now < e.1 }
  | .fire => s

end Spec

def Holds (nodes : List (Node γ)) (k : TimerKey) (e : Int × γ) : Prop :=
  ∃ n ∈ nodes, n.key = k ∧ (n.deadline, n.registered.callback) = e

structure Kept (m : Manager γ) (s : Spec γ) : Prop where
  tables : ∀ sessionId, (m.keepaliveTimeouts sessionId).isSome = (m.keepaliveCallbacks sessionId).isSome
  keepalive : ∀ sessionId, s.keepalive sessionId = (m.keepaliveTimeouts sessionId).bind fun timeout =>
    (m.keepaliveCallbacks sessionId).map fun callback => (timeout, callback.callback)

structure Refines (m : Manager γ) (s : Spec γ) : Prop where
  timers : ∀ k e, s.timers k = some e ↔ Holds m.heap k e
  kept : Kept m s

variable {s s' : Spec γ} {m' : Manager γ}

theorem Refines.started (h : Refines m s) (happlied : Applied m reads op m') (hstarted : op.started m reads = some n)
    (hcancels : ∀ k, ¬ op.Cancels k) (k : TimerKey) (e : Int × γ) :
    update s.timers n.key (some (n.deadline, n.registered.callback)) k = some e ↔ Holds m'.heap k e := by
  rw [update_apply]
  split
  next hk =>
    subst hk
    rw [some_inj]
    constructor
    · rintro rfl
      exact ⟨n, (happlied.heap n).mpr (.inl hstarted), rfl, rfl⟩
    · rintro ⟨n', hn', hkey, rfl⟩
      rcases (happlied.heap n').mp hn' with hn' | ⟨-, -, hne⟩
      · rw [some.inj (hstarted.symm.trans hn')]
      · exact absurd hkey (hne n hstarted)
  next hk =>
    rw [h.timers]
    constructor
    · rintro ⟨n', hn', rfl, he⟩
      refine ⟨n', (happlied.heap n').mpr (.inr ⟨hn', hcancels _, fun s hs => ?_⟩), rfl, he⟩
      rwa [← some.inj (hstarted.symm.trans hs)]
    · rintro ⟨n', hn', rfl, he⟩
      rcases (happlied.heap n').mp hn' with hn' | ⟨hn', -⟩
      · exact absurd (congrArg Node.key (some.inj (hn'.symm.trans hstarted))) hk
      · exact ⟨n', hn', rfl, he⟩

theorem Refines.cancelled (h : Refines m s) (happlied : Applied m reads op m') (hstarted : op.started m reads = none)
    (k : TimerKey) (e : Int × γ) : s.timers k = some e ∧ ¬ op.Cancels k ↔ Holds m'.heap k e := by
  rw [h.timers]
  constructor
  · rintro ⟨⟨n, hn, rfl, he⟩, hcancels⟩
    refine ⟨n, (happlied.heap n).mpr (.inr ⟨hn, hcancels, fun s hs => ?_⟩), rfl, he⟩
    cases hstarted.symm.trans hs
  · rintro ⟨n, hn, rfl, he⟩
    rcases (happlied.heap n).mp hn with hn | ⟨hn, hcancels, -⟩
    · cases hstarted.symm.trans hn
    · exact ⟨⟨n, hn, rfl, he⟩, hcancels⟩

theorem Kept.congr (h : Kept m s) (htimeouts : m'.keepaliveTimeouts = m.keepaliveTimeouts)
    (hcallbacks : m'.keepaliveCallbacks = m.keepaliveCallbacks) (hs : s'.keepalive = s.keepalive) : Kept m' s' := by
  constructor
  · rw [htimeouts, hcallbacks]
    exact h.tables
  · rw [htimeouts, hcallbacks, hs]
    exact h.keepalive

theorem Kept.update (h : Kept m s) (sessionId : String) (entry : Option (Int × Registered γ))
    (htimeouts : m'.keepaliveTimeouts = update m.keepaliveTimeouts sessionId (entry.map Prod.fst))
    (hcallbacks : m'.keepaliveCallbacks = update m.keepaliveCallbacks sessionId (entry.map Prod.snd))
    (hs : s'.keepalive = update s.keepalive sessionId (entry.map fun e => (e.1, e.2.callback))) : Kept m' s' := by
  constructor
  · intro other
    rw [htimeouts, hcallbacks, update_apply, update_apply]
    split
    · cases entry <;> rfl
    · exact h.tables other
  · intro other
    rw [htimeouts, hcallbacks, hs, update_apply, update_apply, update_apply]
    split
    · cases entry <;> rfl
    · exact h.keepalive other

theorem Kept.forgetKeepalive (h : Kept m s) (hrest : SameRest m m') (sessionId : String)
    (hs : s'.keepalive = Function.update s.keepalive sessionId none) : Kept (m'.forgetKeepalive sessionId) s' := by
  refine h.update sessionId none ?_ ?_ hs
  · exact congrArg (fun table => Function.update table sessionId none) hrest.keepaliveTimeouts
  · exact congrArg (fun table => Function.update table sessionId none) hrest.keepaliveCallbacks

section Calls

theorem keepaliveTimeouts_insertTimer : (m.insertTimer key timeout callback cancelledAt now armedAt).keepaliveTimeouts =
    m.keepaliveTimeouts :=
  (sameRest_cancelTimer m key cancelledAt).keepaliveTimeouts

theorem keepaliveCallbacks_insertTimer :
    (m.insertTimer key timeout callback cancelledAt now armedAt).keepaliveCallbacks = m.keepaliveCallbacks :=
  (sameRest_cancelTimer m key cancelledAt).keepaliveCallbacks

theorem update_again {α β : Type} [DecidableEq α] {f g : α → β} (h : f = g) (a : α) (v w : β) :
    update (update f a v) a w = update g a w := by
  rw [h, update_idem]

theorem update_none_iff {timers : TimerKey → Option (Int × γ)} {e : Int × γ} :
    update timers key none k = some e ↔ timers k = some e ∧ ¬ k = key := by
  rw [update_apply]
  split
  next hk => simp [hk]
  next hk => simp [hk]

theorem Refines.startKeepalive (h : Refines m s) (hlinked : Linked m) (sessionId : String) (timeout : Int)
    (callback : γ) : Refines (m.startKeepaliveTimer sessionId timeout callback reads)
      (s.apply reads.now (.startKeepalive sessionId timeout callback)) where
  timers := h.started (applied_startKeepaliveTimer hlinked sessionId timeout callback) rfl fun _ => id
  kept := by
    have hrest := sameRest_cancelTimer m ⟨.keepalive, sessionId, ""⟩ (reads.cancel 0)
    refine h.kept.update sessionId (some (timeout, ⟨m.allocated, callback⟩)) (keepaliveTimeouts_insertTimer.trans ?_)
      (keepaliveCallbacks_insertTimer.trans ?_) rfl
    · exact update_again hrest.keepaliveTimeouts sessionId none _
    · exact update_again hrest.keepaliveCallbacks sessionId none _

theorem Refines.resetKeepalive (h : Refines m s) (hlinked : Linked m) (sessionId : String) :
    Refines (m.resetKeepaliveTimer sessionId reads) (s.apply reads.now (.resetKeepalive sessionId)) := by
  have happlied : Applied m reads (.resetKeepalive sessionId) (m.resetKeepaliveTimer sessionId reads) :=
    applied_apply hlinked reads (.resetKeepalive sessionId)
  have hkept := h.kept.keepalive sessionId
  cases htimeout : m.keepaliveTimeouts sessionId with
  | none =>
    rw [htimeout] at hkept
    rw [Manager.resetKeepaliveTimer, htimeout, Spec.apply, hkept]
    exact h
  | some timeout =>
    have htables := h.kept.tables sessionId
    rw [htimeout] at htables
    obtain ⟨callback, hcallback⟩ := isSome_iff_exists.mp htables.symm
    rw [htimeout, hcallback] at hkept
    have hstarted : Op.started m reads (.resetKeepalive sessionId) =
        some (newNode m ⟨.keepalive, sessionId, ""⟩ timeout reads.now callback) := by
      rw [Op.started, htimeout, hcallback]
    rw [Spec.apply, hkept]
    refine ⟨h.started happlied hstarted fun _ => id, ?_⟩
    rw [Manager.resetKeepaliveTimer, htimeout, hcallback]
    exact h.kept.congr keepaliveTimeouts_insertTimer keepaliveCallbacks_insertTimer rfl

theorem Refines.apply (h : Refines m s) (hlinked : Linked m) (reads : Reads) (op : Op γ) :
    Refines (m.apply reads op) (s.apply reads.now op) := by
  have happlied := applied_apply hlinked reads op
  cases op with
  | startAck sessionId msgTimestamp timeout callback =>
    exact ⟨h.started happlied rfl fun _ => id,
      h.kept.congr keepaliveTimeouts_insertTimer keepaliveCallbacks_insertTimer rfl⟩
  | cancelAck sessionId msgTimestamp =>
    have hrest := sameRest_cancelTimer m ⟨.ack, sessionId, msgTimestamp⟩ (reads.cancel 0)
    exact ⟨fun k e => update_none_iff.trans (h.cancelled happlied rfl k e),
      h.kept.congr hrest.keepaliveTimeouts hrest.keepaliveCallbacks rfl⟩
  | startKeepalive sessionId timeout callback => exact h.startKeepalive hlinked sessionId timeout callback
  | resetKeepalive sessionId => exact h.resetKeepalive hlinked sessionId
  | cancelKeepalive sessionId =>
    have hrest := sameRest_cancelTimer m ⟨.keepalive, sessionId, ""⟩ (reads.cancel 0)
    exact ⟨fun k e => update_none_iff.trans (h.cancelled happlied rfl k e), h.kept.forgetKeepalive hrest sessionId rfl⟩
  | clearSession sessionId =>
    obtain ⟨-, hrest, -⟩ :=
      hlinked.cancelEach ((m.index.rows.map Prod.fst).filter fun key => key.session = sessionId) reads.cancel
    refine ⟨fun k e => Iff.trans ?_ (h.cancelled happlied rfl k e), h.kept.forgetKeepalive hrest sessionId rfl⟩
    change (if k.session = sessionId then none else s.timers k) = some e ↔ s.timers k = some e ∧ ¬ k.session = sessionId
    split
    next hk => simp [hk]
    next hk => simp [hk]

end Calls

section Runs

theorem holds_filter {p : Node γ → Prop} [DecidablePred p] {nodes : List (Node γ)} {e : Int × γ}
    {q : Int × γ → Prop} (hq : ∀ n : Node γ, p n ↔ q (n.deadline, n.registered.callback)) :
    Holds (nodes.filter p) k e ↔ Holds nodes k e ∧ q e := by
  constructor
  · rintro ⟨n, hn, hkey, rfl⟩
    obtain ⟨hn, hp⟩ := mem_filter.mp hn
    exact ⟨⟨n, hn, hkey, rfl⟩, (hq n).mp (of_decide_eq_true hp)⟩
  · rintro ⟨⟨n, hn, hkey, rfl⟩, he⟩
    exact ⟨n, mem_filter.mpr ⟨hn, decide_eq_true ((hq n).mpr he)⟩, hkey, rfl⟩

theorem Refines.ready (h : Refines m s) (hlinked : Linked m) (reads : Reads) :
    Refines (m.onTimerfdReady reads.now reads.arm) (s.step (.ready reads)) := by
  refine ⟨fun k e => ?_, h.kept.congr rfl rfl rfl⟩
  rw [hlinked.heap_onTimerfdReady, holds_filter (q := fun e => reads.now < e.1) fun _ => Iff.rfl, ← h.timers]
  refine filter_eq_some_iff.trans (and_congr_right fun _ => ?_)
  exact decide_eq_true_iff

theorem Refines.step (h : Refines m s) (hlinked : Linked m) (e : Event γ) : Refines (step m e) (s.step e) := by
  cases e with
  | call op reads => exact h.apply hlinked reads op
  | ready reads => exact h.ready hlinked reads
  | fire =>
    rw [TimerHeap.step, Manager.fire]
    split
    · exact h
    · exact ⟨h.timers, h.kept.congr rfl rfl rfl⟩

theorem Refines.run (h : Refines m s) (hlinked : Linked m) (events : List (Event γ)) :
    Refines (events.foldl TimerHeap.step m) (events.foldl Spec.step s) := by
  induction events generalizing m s with
  | nil => exact h
  | cons e events ih => exact ih (h.step hlinked e) (hlinked.step e)

theorem refines_start : Refines (Manager.start : Manager γ) Spec.start := by
  refine ⟨fun k e => iff_of_false ?_ ?_, fun _ => rfl, fun _ => rfl⟩
  · rintro ⟨⟩
  · rintro ⟨n, hn, -⟩
    cases hn

def Event.Until (t : Int) : Event γ → Prop
  | .call _ reads | .ready reads => reads.Until t
  | .fire => True

theorem armedFor_step (hlinked : Linked m) (h : ArmedFor m t) {e : Event γ} (he : e.Until t) :
    ArmedFor (step m e) t := by
  cases e with
  | call op reads => exact armedFor_apply hlinked h he op
  | ready reads => exact armedFor_rearmTimerfd _ he.2.2
  | fire =>
    rw [TimerHeap.step, Manager.fire]
    split <;> exact h

theorem armedFor_run (events : List (Event γ)) (h : ∀ e ∈ events, e.Until t) :
    ArmedFor (events.foldl step .start) t := by
  have hboth : Linked (events.foldl step .start) ∧ ArmedFor (events.foldl step .start) t :=
    List.foldlRecOn (motive := fun m => Linked m ∧ ArmedFor m t) events step ⟨linked_start, rfl⟩
      fun m hm e he => ⟨hm.1.step e, armedFor_step hm.1 hm.2 (h e he)⟩
  exact hboth.2

theorem fired_run {rest : List (Event γ)} (hlinked : Linked m) (hrest : ∀ e ∈ rest, ∀ reads, e ≠ .ready reads) :
    (rest.foldl step m).fired ++ (rest.foldl step m).toFire = m.fired ++ m.toFire := by
  induction rest generalizing m with
  | nil => rfl
  | cons e rest ih =>
    refine (ih (hlinked.step e) fun e' he' => hrest e' (mem_cons_of_mem _ he')).trans ?_
    cases e with
    | call op reads =>
      have happlied := applied_apply hlinked reads op
      exact congrArg₂ (· ++ ·) happlied.fired happlied.toFire
    | ready reads => exact absurd rfl (hrest _ mem_cons_self reads)
    | fire =>
      rw [TimerHeap.step, Manager.fire]
      cases htoFire : m.toFire with
      | nil => rw [htoFire]
      | cons node batch => exact append_assoc _ _ _

/-- An expiry at the moment `now` takes out the timers that are due and runs their callbacks,
each once and by their deadlines, whatever the callbacks themselves call. -/
structure Serves (m m' : Manager γ) (s : Spec γ) (now : Int) : Prop where
  due : ∀ k e, Holds m'.toFire k e ↔ s.timers k = some e ∧ e.1 ≤ now
  removed : ∀ k e, Holds m'.heap k e ↔ s.timers k = some e ∧ now < e.1
  once : (m'.toFire.map Node.key).Nodup
  ordered : m'.toFire.Pairwise fun a b => a.deadline ≤ b.deadline
  runs : ∀ rest : List (Event γ), (∀ e ∈ rest, ∀ reads, e ≠ .ready reads) →
    (rest.foldl step m').fired ++ (rest.foldl step m').toFire = m.fired ++ m'.toFire

theorem Refines.serves (h : Refines m s) (hlinked : Linked m) (reads : Reads) :
    Serves m (TimerHeap.step m (.ready reads)) s reads.now := by
  have htoFire : (TimerHeap.step m (.ready reads)).toFire = _ := hlinked.toFire_onTimerfdReady
  have hheap : (TimerHeap.step m (.ready reads)).heap = _ := hlinked.heap_onTimerfdReady
  refine ⟨fun k e => ?_, fun k e => ?_, ?_, ?_, fun rest hrest => fired_run (hlinked.step _) hrest⟩
  · rw [htoFire, holds_filter (q := fun e => e.1 ≤ reads.now) fun _ => Iff.rfl, h.timers]
  · rw [hheap, holds_filter (q := fun e => reads.now < e.1) fun _ => Iff.rfl, h.timers]
  · rw [htoFire]
    exact hlinked.keys_nodup.sublist (filter_sublist.map _)
  · rw [htoFire]
    exact hlinked.sorted.filter _

/-- The heap, its index, the tables for the resets and the timerfd implement one map from
keys to deadlines and callbacks. -/
theorem timer_manager_refines_map (events : List (Event γ)) : Linked (events.foldl step .start) ∧
      Refines (events.foldl step .start) (events.foldl Spec.step .start) ∧
      (∀ t, (∀ e ∈ events, e.Until t) → ArmedFor (events.foldl step .start) t) ∧
      ∀ reads : Reads, Serves (events.foldl step .start) (step (events.foldl step .start) (.ready reads))
        (events.foldl Spec.step .start) reads.now := by
  have hrefines := refines_start.run linked_start events
  exact ⟨linked_run events, hrefines, fun t => armedFor_run events, hrefines.serves (linked_run events)⟩

end Runs

section Reactor

variable {table table' : Timers}

def specOf (table : Timers) : Spec Callback where
  timers k := (table.entries.find? k).map fun e => (e.deadline, e.callback)
  keepalive s := (table.keepaliveTimeouts.find? s).map fun kept => (kept.2, .keepaliveTimeout s)

/-- What the reactor's table of timers becomes when the manager is used. -/
inductive Uses (table : Timers) : Event Callback → Timers → Prop
  | startAck {reads : Reads} (sessionId timestamp : String) (now timeout : Nat) (callback : Callback)
      (h : reads.now = now) : Uses table (.call (.startAck sessionId timestamp timeout callback) reads)
        (startAckTimer table now sessionId timestamp timeout callback)
  | cancelAck (reads : Reads) (sessionId timestamp : String) :
      Uses table (.call (.cancelAck sessionId timestamp) reads) (cancelAckTimer table sessionId timestamp)
  | startKeepalive {reads : Reads} (sessionId : String) (now timeout : Nat) (h : reads.now = now) :
      Uses table (.call (.startKeepalive sessionId timeout (.keepaliveTimeout sessionId)) reads)
        (startKeepaliveTimer table now sessionId timeout)
  | resetKeepalive {reads : Reads} (sessionId : String) (now : Nat) (h : reads.now = now) :
      Uses table (.call (.resetKeepalive sessionId) reads) (resetKeepaliveTimer table now sessionId)
  | cancelKeepalive (reads : Reads) (sessionId : String) :
      Uses table (.call (.cancelKeepalive sessionId) reads) (cancelKeepaliveTimer table sessionId)
  | clearSession (reads : Reads) (sessionId : String) :
      Uses table (.call (.clearSession sessionId) reads) (clearSessionTimers table sessionId)
  | ready {reads : Reads} (now : Nat) (h : reads.now = now) : Uses table (.ready reads) (withoutDue table now)
  | fire : Uses table .fire table

theorem specOf_insertTimer (now : Nat) (key : TimerKey) (timeout : Nat) (callback : Callback) :
    specOf (insertTimer table now key timeout callback) = (specOf table).set key now timeout callback := by
  refine Spec.ext (funext fun k => ?_) rfl
  simp only [specOf, Spec.set, TimerManager.find?_insertTimer, update_apply]
  split <;> simp

theorem specOf_step {e : Event Callback} (h : Uses table e table') : specOf table' = (specOf table).step e := by
  cases h with
  | startAck sessionId timestamp now timeout callback hnow =>
    rw [Spec.step, Spec.apply, hnow]
    exact specOf_insertTimer ..
  | cancelAck reads sessionId timestamp =>
    refine Spec.ext (funext fun k => ?_) rfl
    simp only [specOf, Spec.step, Spec.apply, cancelAckTimer, TimerManager.find?_cancelTimer, update_apply]
    split <;> rfl
  | startKeepalive sessionId now timeout hnow =>
    refine Spec.ext (funext fun k => ?_) (funext fun s => ?_)
    · simp only [specOf, Spec.step, Spec.apply, Spec.set, find?_startKeepaliveTimer, update_apply, hnow]
      split <;> simp
    · simp only [specOf, Spec.step, Spec.apply, startKeepaliveTimer, insertTimer, cancelTimer, cancelKeepaliveTimer,
        find?_put, Table.find?_erase, update_apply]
      split
      · next hs => rw [hs]; rfl
      · rfl
  | resetKeepalive sessionId now hnow =>
    have hkept : (specOf table).keepalive sessionId = (table.keepaliveTimeouts.find? sessionId).map fun kept =>
      ((kept.2 : Int), .keepaliveTimeout sessionId) := rfl
    rw [Spec.step, Spec.apply, hnow, resetKeepaliveTimer, hkept]
    split
    · next hnone => rw [hnone]; rfl
    · next kept hsome => rw [hsome]; exact specOf_insertTimer ..
  | cancelKeepalive reads sessionId =>
    refine Spec.ext (funext fun k => ?_) (funext fun s => ?_)
    all_goals
      simp only [specOf, Spec.step, Spec.apply, cancelKeepaliveTimer, TimerManager.find?_cancelTimer,
        Table.find?_erase, update_apply]
      split <;> rfl
  | clearSession reads sessionId =>
    refine Spec.ext (funext fun k => ?_) (funext fun s => ?_)
    · simp only [specOf, Spec.step, Spec.apply, find?_clearSessionTimers]
      split <;> rfl
    · simp only [specOf, Spec.step, Spec.apply, clearSessionTimers, Table.find?_erase, update_apply]
      split <;> rfl
  | ready now hnow =>
    refine Spec.ext (funext fun k => Option.ext fun e => ?_) rfl
    simp only [specOf, Spec.step, hnow, filter_eq_some_iff, map_eq_some_iff, find?_withoutDue,
      decide_eq_true_eq]
    constructor
    · rintro ⟨entry, ⟨hentry, hlate⟩, rfl⟩
      exact ⟨⟨entry, hentry, rfl⟩, Int.ofNat_lt.mpr hlate⟩
    · rintro ⟨⟨entry, hentry, rfl⟩, hlate⟩
      exact ⟨entry, ⟨hentry, Int.ofNat_lt.mp hlate⟩, rfl⟩
  | fire => rfl

inductive Joint : Manager Callback → Timers → Prop
  | start : Joint .start TimerManager.start
  | step {m : Manager Callback} {t t' : Timers} {e : Event Callback} (h : Joint m t) (huses : Uses t e t') :
      Joint (step m e) t'

/-- The heap implements the reactor's table of timers, and it takes out the entries that
are due there. -/
theorem Joint.refines {m : Manager Callback} (h : Joint m table) : Linked m ∧ Refines m (specOf table) ∧
    ∀ (reads : Reads) (now : Nat), reads.now = now → ∀ k e, Holds (TimerHeap.step m (.ready reads)).toFire k e ↔
      ∃ entry ∈ dueEntries table now, entry.key = k ∧ ((entry.deadline : Int), entry.callback) = e := by
  have hboth : Linked m ∧ Refines m (specOf table) := by
    induction h with
    | start => exact ⟨linked_start, refines_start⟩
    | step h huses ih => exact ⟨ih.1.step _, specOf_step huses ▸ ih.2.step ih.1 _⟩
  refine ⟨hboth.1, hboth.2, fun reads now hnow k e => ((hboth.2.serves hboth.1 reads).due k e).trans ?_⟩
  simp only [specOf, hnow, map_eq_some_iff, mem_dueEntries, Table.find?_eq_some]
  constructor
  · rintro ⟨⟨entry, ⟨hmem, hkey⟩, rfl⟩, hdue⟩
    exact ⟨entry, ⟨hmem, Int.ofNat_le.mp hdue⟩, hkey, rfl⟩
  · rintro ⟨entry, ⟨hmem, hdue⟩, hkey, rfl⟩
    exact ⟨⟨entry, ⟨hmem, hkey⟩, rfl⟩, Int.ofNat_le.mpr hdue⟩

end Reactor

end Logistics.TimerHeap
