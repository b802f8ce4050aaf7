import Logistics.TimerManager

namespace Logistics.TimerHeap

open KeyedTable RowVersions TimerManager List

variable {γ : Type}

structure Registered (γ : Type) where
  number : Nat
  callback : γ
deriving DecidableEq

structure Node (γ : Type) where
  id : Nat
  deadline : Int
  key : TimerKey
  registered : Registered γ
deriving DecidableEq

abbrev Index := Table (Prod.fst : TimerKey × Nat → TimerKey)

/-- The manager while it also runs a batch of callbacks. Moments are in nanoseconds, and
`timerfd` has the one at which it becomes readable. The index is searched in the order of
insertion where the source goes by the keys; nothing depends on that order. -/
structure Manager (γ : Type) where
  heap : List (Node γ)
  index : Index
  keepaliveTimeouts : String → Option Int
  keepaliveCallbacks : String → Option (Registered γ)
  timerfd : Option Int
  allocated : Nat
  toFire : List (Node γ)
  fired : List (Node γ)

structure Reads where
  cancels : List Int
  now : Int
  arm : Int

def Reads.cancel (reads : Reads) (i : Nat) : Int := reads.cancels.getD i reads.now

namespace Manager

def start : Manager γ := ⟨[], .empty, fun _ => none, fun _ => none, none, 0, [], []⟩

variable (m : Manager γ)

def itValue (delta : Int) : Int × Int :=
  if delta ≤ 0 then (0, 1)
  else
    let secs := delta / 10 ^ 9
    let nsecs := delta - secs * 10 ^ 9
    if secs = 0 ∧ nsecs = 0 then (0, 1) else (secs, nsecs)

def rearmTimerfd (now : Int) : Manager γ :=
  { m with
    timerfd := m.heap.head?.map fun earliest =>
      let value := itValue (earliest.deadline - now)
      now + (value.1 * 10 ^ 9 + value.2) }

def cancelTimer (key : TimerKey) (now : Int) : Bool × Manager γ :=
  match m.index.find? key with
  | none => (false, m)
  | some entry =>
    let erased := { m with heap := m.heap.filter fun node => node.id ≠ entry.2, index := m.index.erase key }
    (true, if m.heap.head?.map Node.id = some entry.2 then erased.rearmTimerfd now else erased)

def emplace (node : Node γ) : List (Node γ) → List (Node γ)
  | [] => [node]
  | first :: rest => if node.deadline < first.deadline then node :: first :: rest else first :: emplace node rest

def insertTimer (key : TimerKey) (timeoutSeconds : Int) (callback : Registered γ) (cancelledAt now armedAt : Int) :
    Manager γ :=
  let cancelled := (m.cancelTimer key cancelledAt).2
  let node : Node γ := ⟨cancelled.allocated, now + timeoutSeconds * 10 ^ 9, key, callback⟩
  rearmTimerfd { cancelled with
    heap := emplace node cancelled.heap
    index := cancelled.index.put (key, node.id)
    allocated := cancelled.allocated + 1 } armedAt

def takeExpired (now : Int) : List (Node γ) → Index → List (Node γ) → List (Node γ) × Index × List (Node γ)
  | [], index, toFire => ([], index, toFire)
  | node :: rest, index, toFire =>
    if now < node.deadline then (node :: rest, index, toFire)
    else takeExpired now rest (index.erase node.key) (toFire ++ [node])

def onTimerfdReady (now armedAt : Int) : Manager γ :=
  let taken := takeExpired now m.heap m.index []
  rearmTimerfd { m with heap := taken.1, index := taken.2.1, toFire := taken.2.2 } armedAt

def fire : Manager γ :=
  match m.toFire with
  | [] => m
  | node :: rest => { m with toFire := rest, fired := m.fired ++ [node] }

def startAckTimer (sessionId msgTimestamp : String) (timeoutSeconds : Int) (callback : γ) (reads : Reads) : Manager γ :=
  m.insertTimer ⟨.ack, sessionId, msgTimestamp⟩ timeoutSeconds ⟨m.allocated, callback⟩ (reads.cancel 0) reads.now
    reads.arm

def cancelAckTimer (sessionId msgTimestamp : String) (reads : Reads) : Bool × Manager γ :=
  m.cancelTimer ⟨.ack, sessionId, msgTimestamp⟩ (reads.cancel 0)

def forgetKeepalive (sessionId : String) : Manager γ :=
  { m with
    keepaliveTimeouts := Function.update m.keepaliveTimeouts sessionId none
    keepaliveCallbacks := Function.update m.keepaliveCallbacks sessionId none }

def cancelKeepaliveTimer (sessionId : String) (reads : Reads) : Manager γ :=
  (m.cancelTimer ⟨.keepalive, sessionId, ""⟩ (reads.cancel 0)).2.forgetKeepalive sessionId

def startKeepaliveTimer (sessionId : String) (timeoutSeconds : Int) (callback : γ) (reads : Reads) : Manager γ :=
  let cancelled := m.cancelKeepaliveTimer sessionId reads
  let kept := { cancelled with
    keepaliveTimeouts := Function.update cancelled.keepaliveTimeouts sessionId (some timeoutSeconds)
    keepaliveCallbacks := Function.update cancelled.keepaliveCallbacks sessionId (some ⟨m.allocated, callback⟩) }
  kept.insertTimer ⟨.keepalive, sessionId, ""⟩ timeoutSeconds ⟨m.allocated, callback⟩ (reads.cancel 1) reads.now
    reads.arm

def resetKeepaliveTimer (sessionId : String) (reads : Reads) : Manager γ :=
  match m.keepaliveTimeouts sessionId, m.keepaliveCallbacks sessionId with
  | some timeoutSeconds, some callback =>
    m.insertTimer ⟨.keepalive, sessionId, ""⟩ timeoutSeconds callback (reads.cancel 0) reads.now reads.arm
  | _, _ => m

def cancelEach (m : Manager γ) : List TimerKey → (Nat → Int) → Manager γ
  | [], _ => m
  | key :: keys, cancel => cancelEach (m.cancelTimer key (cancel 0)).2 keys fun n => cancel (n + 1)

def clearSessionTimers (sessionId : String) (reads : Reads) : Manager γ :=
  let toCancel := (m.index.rows.map Prod.fst).filter fun key => key.session = sessionId
  (m.cancelEach toCancel reads.cancel).forgetKeepalive sessionId

end Manager

inductive Op (γ : Type)
  | startAck (sessionId msgTimestamp : String) (timeoutSeconds : Int) (callback : γ)
  | cancelAck (sessionId msgTimestamp : String)
  | startKeepalive (sessionId : String) (timeoutSeconds : Int) (callback : γ)
  | resetKeepalive (sessionId : String)
  | cancelKeepalive (sessionId : String)
  | clearSession (sessionId : String)

inductive Event (γ : Type)
  | call (op : Op γ) (reads : Reads)
  | ready (reads : Reads)
  | fire

def Manager.apply (m : Manager γ) (reads : Reads) : Op γ → Manager γ
  | .startAck sessionId msgTimestamp timeout callback => m.startAckTimer sessionId msgTimestamp timeout callback reads
  | .cancelAck sessionId msgTimestamp => (m.cancelAckTimer sessionId msgTimestamp reads).2
  | .startKeepalive sessionId timeout callback => m.startKeepaliveTimer sessionId timeout callback reads
  | .resetKeepalive sessionId => m.resetKeepaliveTimer sessionId reads
  | .cancelKeepalive sessionId => m.cancelKeepaliveTimer sessionId reads
  | .clearSession sessionId => m.clearSessionTimers sessionId reads

def step (m : Manager γ) : Event γ → Manager γ
  | .call op reads => m.apply reads op
  | .ready reads => m.onTimerfdReady reads.now reads.arm
  | .fire => m.fire

/-- The reactor comes back to the timerfd once the batch has run. -/
def Possible (m : Manager γ) : Event γ → Prop
  | .call _ _ => True
  | .ready _ => m.toFire = []
  | .fire => m.toFire ≠ []

variable {m m' : Manager γ} {key k : TimerKey} {n : Node γ} {now t : Int}

structure Linked (m : Manager γ) : Prop where
  sorted : m.heap.Pairwise fun a b => a.deadline ≤ b.deadline
  ids : (m.heap.map Node.id).Nodup
  below : ∀ n ∈ m.heap, n.id < m.allocated
  index : ∀ k id, m.index.find? k = some (k, id) ↔ ∃ n ∈ m.heap, n.key = k ∧ n.id = id

theorem Linked.eq_of_id (h : Linked m) {a b : Node γ} (ha : a ∈ m.heap) (hb : b ∈ m.heap) (hid : a.id = b.id) : a = b :=
  inj_on_of_nodup_map h.ids ha hb hid

theorem Linked.eq_of_key (h : Linked m) {a b : Node γ} (ha : a ∈ m.heap) (hb : b ∈ m.heap) (hkey : a.key = b.key) :
    a = b := by
  have hfind := (h.index a.key a.id).mpr ⟨a, ha, rfl, rfl⟩
  rw [(h.index a.key b.id).mpr ⟨b, hb, hkey.symm, rfl⟩] at hfind
  exact h.eq_of_id ha hb (congrArg Prod.snd (Option.some.inj hfind)).symm

theorem Linked.keys_nodup (h : Linked m) : (m.heap.map Node.key).Nodup :=
  Nodup.map_on (fun _ ha _ hb => h.eq_of_key ha hb) (Nodup.of_map _ h.ids)

variable {e : TimerKey × Nat}

theorem fst_of_find? (h : m.index.find? k = some e) : e = (k, e.2) := Prod.ext (Table.find?_eq_some.mp h).2 rfl

theorem Linked.find?_eq_none (h : Linked m) : m.index.find? k = none ↔ ∀ n ∈ m.heap, n.key ≠ k := by
  constructor
  · intro hnone n hn hkey
    have hfind := (h.index k n.id).mpr ⟨n, hn, hkey, rfl⟩
    rw [hnone] at hfind
    cases hfind
  · intro hall
    cases hfind : m.index.find? k with
    | none => rfl
    | some e =>
      rw [fst_of_find? hfind] at hfind
      obtain ⟨n, hn, hkey, -⟩ := (h.index k e.2).mp hfind
      exact absurd hkey (hall n hn)

theorem Linked.filter (h : Linked m) {p : Node γ → Prop} [DecidablePred p] (hheap : m'.heap = m.heap.filter p)
    (hallocated : m'.allocated = m.allocated)
    (hindex : ∀ k, (∀ n ∈ m.heap, n.key = k → p n) → m'.index.find? k = m.index.find? k)
    (hgone : ∀ n ∈ m.heap, ¬ p n → m'.index.find? n.key = none) : Linked m' where
  sorted := hheap ▸ h.sorted.filter _
  ids := hheap ▸ h.ids.sublist (filter_sublist.map _)
  below n hn := hallocated ▸ h.below n (mem_of_mem_filter (hheap ▸ hn))
  index k id := by
    rw [hheap]
    constructor
    · intro hfind
      by_cases hall : ∀ n ∈ m.heap, n.key = k → p n
      · obtain ⟨n, hn, hkey, hid⟩ := (h.index k id).mp (hindex k hall ▸ hfind)
        exact ⟨n, mem_filter.mpr ⟨hn, by simpa using hall n hn hkey⟩, hkey, hid⟩
      · push Not at hall
        obtain ⟨n, hn, rfl, hp⟩ := hall
        rw [hgone n hn hp] at hfind
        cases hfind
    · rintro ⟨n, hn, rfl, rfl⟩
      obtain ⟨hn, hp⟩ := mem_filter.mp hn
      rw [hindex n.key fun n' hn' hkey => h.eq_of_key hn' hn hkey ▸ by simpa using hp]
      exact (h.index n.key n.id).mpr ⟨n, hn, rfl, rfl⟩

/-- The timerfd is set exactly while the heap has an entry, for the earliest deadline or,
once that is over at the moment `t`, for the next nanosecond. -/
def ArmedFor (m : Manager γ) (t : Int) : Prop :=
  match m.heap.head? with
  | none => m.timerfd = none
  | some earliest => ∃ moment, m.timerfd = some moment ∧ moment ≤ max earliest.deadline (t + 1)

theorem itValue_total (delta : Int) : (Manager.itValue delta).1 * 10 ^ 9 + (Manager.itValue delta).2 = max delta 1 := by
  rw [Manager.itValue]
  split
  · omega
  · simp only
    split <;> omega

theorem armedFor_rearmTimerfd (m : Manager γ) (hnow : now ≤ t) : ArmedFor (m.rearmTimerfd now) t := by
  rw [ArmedFor, Manager.rearmTimerfd]
  cases m.heap.head? with
  | none => rfl
  | some earliest =>
    refine ⟨_, rfl, ?_⟩
    simp only [itValue_total]
    omega

section Cancel

theorem cancelTimer_none (h : m.index.find? key = none) : (m.cancelTimer key now).2 = m := by
  rw [Manager.cancelTimer, h]

theorem cancelTimer_some (h : m.index.find? key = some e) : (m.cancelTimer key now).2 =
      let erased := { m with heap := m.heap.filter fun node => node.id ≠ e.2, index := m.index.erase key }
      if m.heap.head?.map Node.id = some e.2 then erased.rearmTimerfd now else erased := by
  rw [Manager.cancelTimer, h]

structure SameRest (m m' : Manager γ) : Prop where
  keepaliveTimeouts : m'.keepaliveTimeouts = m.keepaliveTimeouts
  keepaliveCallbacks : m'.keepaliveCallbacks = m.keepaliveCallbacks
  allocated : m'.allocated = m.allocated
  toFire : m'.toFire = m.toFire
  fired : m'.fired = m.fired

theorem SameRest.refl (m : Manager γ) : SameRest m m := ⟨rfl, rfl, rfl, rfl, rfl⟩

theorem SameRest.trans {m'' : Manager γ} (h : SameRest m m') (h' : SameRest m' m'') : SameRest m m'' where
  keepaliveTimeouts := h'.keepaliveTimeouts.trans h.keepaliveTimeouts
  keepaliveCallbacks := h'.keepaliveCallbacks.trans h.keepaliveCallbacks
  allocated := h'.allocated.trans h.allocated
  toFire := h'.toFire.trans h.toFire
  fired := h'.fired.trans h.fired

theorem sameRest_cancelTimer (m : Manager γ) (key : TimerKey) (now : Int) : SameRest m (m.cancelTimer key now).2 := by
  cases hfind : m.index.find? key with
  | none => rw [cancelTimer_none hfind]; exact .refl m
  | some e =>
    rw [cancelTimer_some hfind]
    split <;> exact ⟨rfl, rfl, rfl, rfl, rfl⟩

theorem find?_cancelTimer (m : Manager γ) (key : TimerKey) (now : Int) (k : TimerKey) :
    (m.cancelTimer key now).2.index.find? k = if k = key then none else m.index.find? k := by
  cases hfind : m.index.find? key with
  | none =>
    rw [cancelTimer_none hfind]
    split
    next hk => rw [hk, hfind]
    next => rfl
  | some e =>
    have hindex : (m.cancelTimer key now).2.index = m.index.erase key := by
      rw [cancelTimer_some hfind]
      split <;> rfl
    rw [hindex, Table.find?_erase]

theorem Linked.heap_cancelTimer (h : Linked m) (key : TimerKey) (now : Int) :
    (m.cancelTimer key now).2.heap = m.heap.filter fun n => n.key ≠ key := by
  cases hfind : m.index.find? key with
  | none =>
    rw [cancelTimer_none hfind]
    exact (filter_eq_self.mpr fun n hn => decide_eq_true (h.find?_eq_none.mp hfind n hn)).symm
  | some e =>
    have hheap : (m.cancelTimer key now).2.heap = m.heap.filter fun n => n.id ≠ e.2 := by
      rw [cancelTimer_some hfind]
      split <;> rfl
    rw [fst_of_find? hfind] at hfind
    obtain ⟨node, hnode, hkey, hid⟩ := (h.index key e.2).mp hfind
    rw [hheap]
    refine filter_congr fun n hn => decide_eq_decide.mpr (not_congr ?_)
    rw [← hid, ← hkey]
    exact ⟨fun he => congrArg Node.key (h.eq_of_id hn hnode he), fun he => congrArg Node.id (h.eq_of_key hn hnode he)⟩

theorem Linked.cancelTimer (h : Linked m) (key : TimerKey) (now : Int) : Linked (m.cancelTimer key now).2 := by
  refine h.filter (h.heap_cancelTimer key now) (sameRest_cancelTimer m key now).allocated (fun k hall => ?_)
    fun n hn hkey => ?_
  · rw [find?_cancelTimer]
    split
    next hk => exact (h.find?_eq_none.mpr fun n hn hkey => hall n hn hkey (hkey.trans hk)).symm
    next => rfl
  · rw [find?_cancelTimer, if_pos (not_not.mp hkey)]

theorem armedFor_cancelTimer (h : Linked m) (harmed : ArmedFor m t) (key : TimerKey) (hnow : now ≤ t) :
    ArmedFor (m.cancelTimer key now).2 t := by
  cases hfind : m.index.find? key with
  | none => rwa [cancelTimer_none hfind]
  | some e =>
    rw [cancelTimer_some hfind]
    split
    next => exact armedFor_rearmTimerfd _ hnow
    next hhead =>
        rw [fst_of_find? hfind] at hfind
        obtain ⟨node, hnode, -, hid⟩ := (h.index key e.2).mp hfind
        rw [ArmedFor] at harmed ⊢
        cases hheap : m.heap with
        | nil => rw [hheap] at hnode; cases hnode
        | cons first rest =>
          rw [hheap] at harmed hhead
          have hfirst : first.id ≠ e.2 := fun he => hhead (congrArg some he)
          rwa [filter_cons_of_pos (by simpa using hfirst)]

theorem Linked.cancelEach (h : Linked m) (keys : List TimerKey) (cancel : Nat → Int) :
    Linked (m.cancelEach keys cancel) ∧ SameRest m (m.cancelEach keys cancel) ∧
      (m.cancelEach keys cancel).heap = m.heap.filter fun n => n.key ∉ keys := by
  induction keys generalizing m cancel with
  | nil => exact ⟨h, .refl m, (filter_eq_self.mpr fun _ _ => by simp).symm⟩
  | cons key keys ih =>
    obtain ⟨hlinked, hrest, hheap⟩ := ih (h.cancelTimer key (cancel 0)) fun n => cancel (n + 1)
    refine ⟨hlinked, (sameRest_cancelTimer m key (cancel 0)).trans hrest, ?_⟩
    rw [Manager.cancelEach, hheap, h.heap_cancelTimer, filter_filter]
    refine filter_congr fun n _ => ?_
    rw [← Bool.decide_and, decide_eq_decide, mem_cons, not_or, and_comm]

theorem armedFor_cancelEach (h : Linked m) (harmed : ArmedFor m t) (keys : List TimerKey) {cancel : Nat → Int}
    (hcancel : ∀ i, cancel i ≤ t) : ArmedFor (m.cancelEach keys cancel) t := by
  induction keys generalizing m cancel with
  | nil => exact harmed
  | cons key keys ih =>
    exact ih (h.cancelTimer key (cancel 0)) (armedFor_cancelTimer h harmed key (hcancel 0)) fun i => hcancel (i + 1)

end Cancel

variable {l : List (Node γ)}

section Insert

theorem emplace_perm (node : Node γ) (l : List (Node γ)) : (Manager.emplace node l).Perm (node :: l) := by
  induction l with
  | nil => exact .refl _
  | cons first rest ih =>
    rw [Manager.emplace]
    split
    · exact .refl _
    · exact (ih.cons first).trans (.swap node first rest)

theorem emplace_sorted (h : l.Pairwise fun a b => a.deadline ≤ b.deadline) (node : Node γ) :
    (Manager.emplace node l).Pairwise fun a b => a.deadline ≤ b.deadline := by
  induction l with
  | nil => exact pairwise_singleton _ _
  | cons first rest ih =>
    obtain ⟨hfirst, hrest⟩ := pairwise_cons.mp h
    rw [Manager.emplace]
    split
    next hlt =>
      refine pairwise_cons.mpr ⟨fun n hn => ?_, h⟩
      rcases mem_cons.mp hn with rfl | hn
      · exact hlt.le
      · exact hlt.le.trans (hfirst n hn)
    next hle =>
      refine pairwise_cons.mpr ⟨fun n hn => ?_, ih hrest⟩
      rcases mem_cons.mp ((emplace_perm node rest).mem_iff.mp hn) with rfl | hn
      · exact not_lt.mp hle
      · exact hfirst n hn

variable {timeout cancelledAt armedAt : Int} {callback : Registered γ}

def newNode (m : Manager γ) (key : TimerKey) (timeout now : Int) (callback : Registered γ) : Node γ :=
  ⟨m.allocated, now + timeout * 10 ^ 9, key, callback⟩

theorem Linked.mem_insertTimer (h : Linked m) : n ∈ (m.insertTimer key timeout callback cancelledAt now armedAt).heap ↔
    n = newNode m key timeout now callback ∨ n ∈ m.heap ∧ n.key ≠ key := by
  rw [newNode, ← (sameRest_cancelTimer m key cancelledAt).allocated]
  refine (emplace_perm _ _).mem_iff.trans (mem_cons.trans (or_congr Iff.rfl ?_))
  rw [h.heap_cancelTimer, mem_filter, decide_eq_true_eq]

theorem find?_insertTimer : (m.insertTimer key timeout callback cancelledAt now armedAt).index.find? k =
    if k = key then some (key, m.allocated) else m.index.find? k := by
  refine (find?_put _ _ k).trans ?_
  split
  · rw [(sameRest_cancelTimer m key cancelledAt).allocated]
  next hk => rw [find?_cancelTimer, if_neg hk]

theorem allocated_insertTimer : (m.insertTimer key timeout callback cancelledAt now armedAt).allocated =
    m.allocated + 1 :=
  congrArg (· + 1) (sameRest_cancelTimer m key cancelledAt).allocated

theorem Linked.insertTimer (h : Linked m) : Linked (m.insertTimer key timeout callback cancelledAt now armedAt) where
  sorted := emplace_sorted (h.cancelTimer key cancelledAt).sorted _
  ids := by
    refine ((emplace_perm _ _).map _).nodup_iff.mpr (nodup_cons.mpr ⟨fun hmem => ?_, ?_⟩)
    · obtain ⟨n, hn, hid⟩ := mem_map.mp hmem
      exact absurd hid ((h.cancelTimer key cancelledAt).below n hn).ne
    · exact (h.cancelTimer key cancelledAt).ids
  below n hn := by
    rw [allocated_insertTimer]
    rcases h.mem_insertTimer.mp hn with rfl | ⟨hn, -⟩
    · exact Nat.lt_succ_self _
    · exact Nat.lt_succ_of_lt (h.below n hn)
  index k id := by
    rw [find?_insertTimer]
    split
    next hk =>
      subst hk
      constructor
      · rintro ⟨⟩
        exact ⟨_, h.mem_insertTimer.mpr (.inl rfl), rfl, rfl⟩
      · rintro ⟨n, hn, hkey, rfl⟩
        rcases h.mem_insertTimer.mp hn with rfl | ⟨-, hne⟩
        · rfl
        · exact absurd hkey hne
    next hk =>
      rw [h.index]
      constructor
      · rintro ⟨n, hn, rfl, hid⟩
        exact ⟨n, h.mem_insertTimer.mpr (.inr ⟨hn, hk⟩), rfl, hid⟩
      · rintro ⟨n, hn, rfl, hid⟩
        rcases h.mem_insertTimer.mp hn with rfl | ⟨hn, -⟩
        · exact absurd rfl hk
        · exact ⟨n, hn, rfl, hid⟩

theorem armedFor_insertTimer (hnow : armedAt ≤ t) :
    ArmedFor (m.insertTimer key timeout callback cancelledAt now armedAt) t :=
  armedFor_rearmTimerfd _ hnow

end Insert

section Expiry

theorem takeExpired_eq (h : l.Pairwise fun a b => a.deadline ≤ b.deadline)
    (index : Index) (toFire : List (Node γ)) :
    (Manager.takeExpired now l index toFire).1 = l.filter (fun n => now < n.deadline) ∧
      (Manager.takeExpired now l index toFire).2.2 = toFire ++ l.filter (fun n => n.deadline ≤ now) ∧
      ∀ k, (Manager.takeExpired now l index toFire).2.1.find? k =
        if k ∈ (l.filter fun n => n.deadline ≤ now).map Node.key then none else index.find? k := by
  induction l generalizing index toFire with
  | nil => exact ⟨rfl, (append_nil _).symm, fun k => rfl⟩
  | cons node rest ih =>
    obtain ⟨hnode, hrest⟩ := pairwise_cons.mp h
    rw [Manager.takeExpired]
    split
    next hlate =>
      have hall (n : Node γ) (hn : n ∈ node :: rest) : now < n.deadline := by
        rcases mem_cons.mp hn with rfl | hn
        · exact hlate
        · exact hlate.trans_le (hnode n hn)
      have hdue : (node :: rest).filter (fun n => n.deadline ≤ now) = [] :=
        filter_eq_nil_iff.mpr fun n hn => by simpa using hall n hn
      rw [hdue]
      exact ⟨(filter_eq_self.mpr fun n hn => decide_eq_true (hall n hn)).symm, (append_nil _).symm,
        fun k => rfl⟩
    next hdue =>
      obtain ⟨hheap, hfire, hfind⟩ := ih hrest (index.erase node.key) (toFire ++ [node])
      rw [filter_cons_of_neg (by simpa using hdue), filter_cons_of_pos (by simpa using hdue)]
      refine ⟨hheap, hfire.trans (append_assoc _ _ _), fun k => ?_⟩
      rw [hfind, Table.find?_erase, map_cons]
      by_cases hk : k = node.key
      · rw [if_pos hk, ite_self, if_pos (hk ▸ mem_cons_self)]
      · rw [if_neg hk]
        simp only [mem_cons, hk, false_or]

variable {armedAt : Int}

theorem Linked.heap_onTimerfdReady (h : Linked m) :
    (m.onTimerfdReady now armedAt).heap = m.heap.filter fun n => now < n.deadline :=
  (takeExpired_eq h.sorted m.index []).1

theorem Linked.toFire_onTimerfdReady (h : Linked m) :
    (m.onTimerfdReady now armedAt).toFire = m.heap.filter fun n => n.deadline ≤ now :=
  (takeExpired_eq h.sorted m.index []).2.1

theorem Linked.onTimerfdReady (h : Linked m) : Linked (m.onTimerfdReady now armedAt) := by
  have hfind (k : TimerKey) : (m.onTimerfdReady now armedAt).index.find? k = _ :=
    (takeExpired_eq h.sorted m.index []).2.2 k
  refine h.filter h.heap_onTimerfdReady rfl (fun k hall => ?_) fun n hn hdue => ?_
  · rw [hfind, if_neg]
    intro hmem
    obtain ⟨n, hn, rfl⟩ := mem_map.mp hmem
    obtain ⟨hn, hdue⟩ := mem_filter.mp hn
    exact absurd (hall n hn rfl) (not_lt.mpr (of_decide_eq_true hdue))
  · rw [hfind, if_pos]
    exact mem_map_of_mem (mem_filter.mpr ⟨hn, decide_eq_true (not_lt.mp hdue)⟩)

end Expiry

end Logistics.TimerHeap
