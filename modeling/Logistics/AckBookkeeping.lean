import Logistics.ClientCopies

namespace Logistics.ClientThreads

open JsonManager Client Reachability List Function Option

variable {cfg : AckConfig} {c c' : Threads} {instr : Instr} {e : Event} {t : Tagged} {i : Fin maxPendingAcks}

/-- A slot loses its message only when the receiver works on the acknowledgement of
that very message. -/
def OwnAckOnly (cfg : AckConfig) (c : Threads) (e : Event) : Prop :=
  ∀ i t, c.memory.keeps i = some t → (step cfg c e).memory.keeps i ≠ some t →
    ∃ stamp acked rest, e = .receiver stamp ∧ c.receiver = .remove acked :: rest ∧ acked.id = t.id

def FoundByStamp (c : Threads) (e : Event) : Prop :=
  ∀ stamp acked rest, e = .receiver stamp → c.receiver = .remove acked :: rest →
    ∀ i t, c.memory.slotOf acked.message.timestamp = some i → c.memory.keeps i = some t → acked.id = t.id

theorem Effect.keeps (h : Effect c instr c') (ht : c.memory.keeps i = some t) : c'.memory.keeps i = some t ∨ ∃ acked,
    instr = .remove acked ∧ c.memory.slotOf acked.message.timestamp = some i := by
  cases h with
  | quiet _ hacks =>
    refine .inl ?_
    rwa [Memory.keeps, hacks]
  | posted hm =>
    refine .inl ?_
    rwa [Memory.keeps, (Memory.of_enqueuePendingMessage hm).2.1]
  | removed acked =>
    by_cases hslot : c.memory.slotOf acked.message.timestamp = some i
    · exact .inr ⟨acked, rfl, hslot⟩
    · refine .inl ?_
      rwa [Memory.keeps_removePendingAck, if_neg hslot]

theorem Turn.keeps (h : Turn cfg c e c') (hchild : ∀ acked, .remove acked ∉ c.child) (ht : c.memory.keeps i = some t) :
    c'.memory.keeps i = some t ∨ ∃ stamp acked rest, e = .receiver stamp ∧ c.receiver = .remove acked :: rest ∧
    c.memory.slotOf acked.message.timestamp = some i := by
  cases h with
  | @receiver stamp instr rest hr =>
    rcases (effect_exec cfg stamp c rest instr).keeps ht with hkeep | ⟨acked, rfl, hslot⟩
    · exact .inl hkeep
    · exact .inr ⟨stamp, acked, rest, rfl, hr, hslot⟩
  | @child stamp instr rest hr =>
    rcases (effect_exec cfg stamp c rest instr).keeps ht with hkeep | ⟨acked, rfl, -⟩
    · exact .inl hkeep
    · exact absurd (hr ▸ mem_cons_self) (hchild acked)
  | @track now u hsent =>
    rcases Memory.keeps_addPendingAck c.memory now u i with hkeep | ⟨hfree, -⟩
    · exact .inl (hkeep.trans ht)
    · cases hfree.symm.trans ht
  | @check now =>
    have hkeeps := (Memory.checkSlots_spec cfg now (finRange maxPendingAcks) 0 c.memory).2
    exact .inl ((congrFun hkeeps i).trans ht)
  | @requeue u =>
    refine .inl ?_
    cases henq : c.memory.enqueuePendingMessage u with
    | none => exact ht
    | some m =>
      change m.keeps i = some t
      rwa [Memory.keeps, (Memory.of_enqueuePendingMessage henq).2.1]
  | idle | receives | wakes | pop | send | collect | requeued => exact .inl ht

theorem ownAckOnly_iff (hc : Genuine c) : OwnAckOnly cfg c e ↔ FoundByStamp c e := by
  constructor
  · rintro h stamp acked rest rfl hr i t hslot ht
    have hcleared : (step cfg c (.receiver stamp)).memory.keeps i ≠ some t := by
      simp only [step, hr, Instr.exec, Memory.keeps_removePendingAck, if_pos hslot]
      rintro ⟨⟩
    obtain ⟨-, acked', rest', -, hr', hid⟩ := h i t ht hcleared
    cases hr.symm.trans hr'
    exact hid
  · intro h i t ht hcleared
    rcases (turn_step cfg c e).keeps hc.child ht with hkeep | ⟨stamp, acked, rest, he, hr, hslot⟩
    · exact absurd hkeep hcleared
    · exact ⟨stamp, acked, rest, he, hr, h stamp acked rest he hr i t hslot ht⟩

theorem foundByStamp_of_nodup (hc : Genuine c) (h : (c.created.map Message.timestamp).Nodup) : FoundByStamp c e := by
  intro stamp acked rest _ hr i t hslot ht
  have hacked := hc.handed acked (hc.acked acked (hr ▸ mem_cons_self))
  have hkept := hc.held t (.inl (.inr ⟨i, ht⟩))
  obtain ⟨u, hu, hstamp⟩ := Memory.of_slotOf hslot
  cases hu.symm.trans ht
  have hboth : (c.created.map Message.timestamp)[acked.id]? = (c.created.map Message.timestamp)[t.id]? := by
    rw [getElem?_map, getElem?_map, hacked, hkept, map_some, map_some, hstamp]
  obtain ⟨hlt, -⟩ := List.getElem?_eq_some_iff.mp hacked
  exact (getElem?_inj (by rwa [length_map]) h).mp hboth

theorem created_prefix_foldl (events : List Event) (c : Threads) :
    c.created <+: (events.foldl (step cfg) c).created := by
  induction events generalizing c with
  | nil => exact prefix_rfl
  | cons e events ih => exact (turn_step cfg c e).created.trans (ih (step cfg c e))

/-- In every run a tracked message leaves the table only through its own
acknowledgement exactly when every acknowledgement finds its own message under its
time stamp. It does if no two messages were created in the same millisecond. -/
theorem own_ack_only_iff (cfg : AckConfig) (clientRole clientId : String) (events : List Event) :
    (Along (step cfg) (OwnAckOnly cfg) (start clientRole clientId) events ↔
      Along (step cfg) FoundByStamp (start clientRole clientId) events) ∧
    (((events.foldl (step cfg) (start clientRole clientId)).created.map Message.timestamp).Nodup →
      Along (step cfg) (OwnAckOnly cfg) (start clientRole clientId) events) := by
  refine ⟨along_congr (fun c e hc _ => genuine_step cfg c e hc) (fun c e hc => ownAckOnly_iff hc)
    (genuine_start _ _) events, ?_⟩
  have hrun : ∀ events c, Genuine c → ((events.foldl (step cfg) c).created.map Message.timestamp).Nodup →
      Along (step cfg) (OwnAckOnly cfg) c events := by
    intro events
    induction events with
    | nil => exact fun _ _ _ => trivial
    | cons e events ih =>
      intro c hc hnodup
      have hnow : (c.created.map Message.timestamp).Nodup :=
        hnodup.sublist ((created_prefix_foldl (e :: events) c).sublist.map _)
      exact ⟨(ownAckOnly_iff hc).mpr (foundByStamp_of_nodup hc hnow), ih _ (genuine_step cfg c e hc) hnodup⟩
  exact hrun events _ (genuine_start _ _)

def defaultConfig : AckConfig := ⟨⟨20, 100⟩, 5000, 3⟩

def sameMillisecond : List Event :=
  [.timer .inventoryUpdate, .child "2025-11-03T10:15:30.123Z", .child "", .child "2025-11-03T10:15:30.123Z", .pop,
    .send true, .pop, .send true, .track 0, .receiveAck 0]

def Instr.ackedId : Instr → Option Nat
  | .remove acked => some acked.id
  | _ => none

theorem keepalive_ack_clears_update : ¬ Along (step defaultConfig) (OwnAckOnly defaultConfig) (start hub "hub_1")
    (sameMillisecond ++ [.receiver ""]) := by
  intro h
  have hstep := (along_append.mp h).2.1
  have hrun : ((sameMillisecond.foldl (step defaultConfig) (start hub "hub_1")).memory.keeps ⟨0, Nat.succ_pos 9⟩).map
        Tagged.id = some 1 ∧
      ((step defaultConfig (sameMillisecond.foldl (step defaultConfig) (start hub "hub_1")) (.receiver "")).memory.keeps
        ⟨0, Nat.succ_pos 9⟩).isNone ∧
      (sameMillisecond.foldl (step defaultConfig) (start hub "hub_1")).receiver.map Instr.ackedId = [some 0] := by
    decide +kernel
  generalize sameMillisecond.foldl (step defaultConfig) (start hub "hub_1") = c at hstep hrun
  obtain ⟨hkept, hcleared, hacked⟩ := hrun
  obtain ⟨t, ht, hid⟩ := map_eq_some_iff.mp hkept
  have hgone : (step defaultConfig c (.receiver "")).memory.keeps ⟨0, Nat.succ_pos 9⟩ ≠ some t := by
    rw [isNone_iff_eq_none.mp hcleared]
    rintro ⟨⟩
  obtain ⟨-, acked, rest, -, hr, hown⟩ := hstep _ t ht hgone
  rw [hr, map_cons] at hacked
  have hzero : acked.id = 0 := some.inj (cons.inj hacked).1
  omega

def PendingAck.Expired (cfg : AckConfig) (now : Nat) (a : PendingAck) : Prop :=
  cfg.ackTimeoutMs ≤ (now : Int) - a.sendTime

instance (cfg : AckConfig) (now : Nat) : DecidablePred (PendingAck.Expired cfg now) :=
  fun _ => inferInstanceAs (Decidable (_ ≤ _))

def PendingAck.checked (cfg : AckConfig) (now : Nat) (a : PendingAck) : PendingAck :=
  if a.Expired cfg now then { a with retryCount := a.retryCount + 1, sendTime := now } else a

def Memory.expired (cfg : AckConfig) (now : Nat) (m : Memory) : List Tagged :=
  (finRange maxPendingAcks).filterMap fun i =>
    (m.acks i).bind fun a => if a.Expired cfg now then some a.kept else none

variable {now : Nat} {m : Memory}

theorem acks_checkSlots {slots : List (Fin maxPendingAcks)} (hnodup : slots.Nodup) {needs : Int}
    (h : 0 < (Memory.checkSlots cfg now slots needs m).1) (i : Fin maxPendingAcks) :
    (Memory.checkSlots cfg now slots needs m).2.acks i =
      if i ∈ slots then (m.acks i).map (PendingAck.checked cfg now) else m.acks i := by
  induction slots generalizing needs m with
  | nil => exact (if_neg not_mem_nil).symm
  | cons j rest ih =>
    obtain ⟨hj, hrest⟩ := nodup_cons.mp hnodup
    have hthere : ∀ {m' : Memory} {a : Option PendingAck}, m'.acks = update m.acks j a →
        a = (m.acks j).map (PendingAck.checked cfg now) →
        (if i ∈ rest then (m'.acks i).map (PendingAck.checked cfg now) else m'.acks i) =
          if i ∈ j :: rest then (m.acks i).map (PendingAck.checked cfg now) else m.acks i := by
      intro m' a hm' ha
      rw [hm']
      by_cases hij : i = j
      · rw [hij, if_neg hj, if_pos mem_cons_self, update_self, ha]
      · rw [update_of_ne hij]
        simp only [mem_cons, hij, false_or]
    rw [Memory.checkSlots] at h ⊢
    cases ha : m.acks j with
    | none =>
      rw [ha] at h
      exact (ih hrest h).trans (hthere (update_eq_self j m.acks).symm (by rw [ha]; rfl))
    | some a =>
      rw [ha] at h
      dsimp only at h ⊢
      by_cases hin : (now : Int) - a.sendTime < cfg.ackTimeoutMs
      · rw [if_pos hin] at h ⊢
        refine (ih hrest h).trans (hthere (update_eq_self j m.acks).symm ?_)
        rw [ha]
        exact congrArg some (if_neg (Int.not_le.mpr hin)).symm
      · rw [if_neg hin] at h ⊢
        by_cases hlast : (a.retryCount : Int) + 1 < cfg.maxRetries
        · rw [if_pos hlast] at h ⊢
          refine (ih hrest h).trans (hthere rfl ?_)
          rw [ha]
          exact congrArg some (if_pos (Int.not_lt.mp hin)).symm
        · rw [if_neg hlast] at h
          exact absurd (show (0 : Int) < -1 from h) (by decide)

theorem length_filterMap_le {α β : Type} {f g : α → Option β} {l : List α} (h : ∀ x ∈ l, g x = none ∨ g x = f x) :
    (l.filterMap g).length ≤ (l.filterMap f).length := by
  induction l with
  | nil => exact Nat.le_refl 0
  | cons x l ih =>
    obtain ⟨hx, hl⟩ := forall_mem_cons.mp h
    have hle := ih hl
    rcases hx with hx | hx
    · rw [filterMap_cons_none hx]
      exact hle.trans ((sublist_cons_self x l).filterMap f).length_le
    · cases hf : f x with
      | none => rwa [filterMap_cons_none hf, filterMap_cons_none (hx.trans hf)]
      | some y =>
        rw [filterMap_cons_some hf, filterMap_cons_some (hx.trans hf)]
        exact Nat.succ_le_succ hle

theorem filterMap_eq_iff {α β : Type} {f g : α → Option β} {l : List α} (h : ∀ x ∈ l, g x = none ∨ g x = f x) :
    l.filterMap f = l.filterMap g ↔ ∀ x ∈ l, f x = g x := by
  refine ⟨fun he => ?_, filterMap_congr⟩
  induction l with
  | nil => exact fun x hx => absurd hx not_mem_nil
  | cons x l ih =>
    obtain ⟨hx, hl⟩ := forall_mem_cons.mp h
    have hsame : f x = g x := by
      rcases hx with hx | hx
      · cases hf : f x with
        | none => exact hx.symm
        | some y =>
          have hlength := congrArg length he
          rw [filterMap_cons_some hf, filterMap_cons_none hx] at hlength
          exact absurd (length_filterMap_le hl) (Nat.not_le.mpr (Nat.lt_of_succ_le hlength.le))
      · exact hx.symm
    refine forall_mem_cons.mpr ⟨hsame, ih hl ?_⟩
    cases hf : f x with
    | none => rwa [filterMap_cons_none hf, filterMap_cons_none (hsame ▸ hf)] at he
    | some y =>
      rw [filterMap_cons_some hf, filterMap_cons_some (hsame ▸ hf)] at he
      exact (cons.inj he).2

theorem collect_checkAckTimeouts (h : 0 < (m.checkAckTimeouts cfg now).1) :
    (m.checkAckTimeouts cfg now).2.collectRetryableMessages = (finRange maxPendingAcks).filterMap fun i =>
      (m.acks i).bind fun a => if a.Expired cfg now ∨ 0 < a.retryCount then some a.kept else none := by
  refine filterMap_congr fun i hi => ?_
  rw [Memory.checkAckTimeouts, acks_checkSlots (nodup_finRange _) h, if_pos hi]
  cases m.acks i with
  | none => rfl
  | some a =>
    change (if 0 < (a.checked cfg now).retryCount then some (a.checked cfg now).kept else none) = _
    rw [PendingAck.checked]
    by_cases hexp : a.Expired cfg now
    · rw [if_pos hexp, if_pos (Nat.succ_pos _)]
      exact (if_pos (.inl hexp)).symm
    · rw [if_neg hexp]
      simp only [bind_some, hexp, false_or]

theorem collect_eq_expired_iff (h : 0 < (m.checkAckTimeouts cfg now).1) :
    (m.checkAckTimeouts cfg now).2.collectRetryableMessages = m.expired cfg now ↔
      ∀ i a, m.acks i = some a → ¬ a.Expired cfg now → a.retryCount = 0 := by
  rw [collect_checkAckTimeouts h, Memory.expired, filterMap_eq_iff]
  · constructor
    · intro hall i a ha hin
      have hi := hall i (mem_finRange i)
      rw [ha, bind_some, bind_some, if_neg hin] at hi
      by_contra hcount
      rw [if_pos (.inr (Nat.pos_of_ne_zero hcount))] at hi
      cases hi
    · intro hall i _
      cases ha : m.acks i with
      | none => rfl
      | some a =>
        rw [bind_some, bind_some]
        by_cases hin : a.Expired cfg now
        · rw [if_pos (.inl hin), if_pos hin]
        · rw [if_neg hin, if_neg]
          rintro (hexp | hcount)
          · exact hin hexp
          · exact absurd (hall i a ha hin) (Nat.ne_of_gt hcount)
  · intro i _
    cases m.acks i with
    | none => exact .inl rfl
    | some a =>
      rw [bind_some, bind_some]
      by_cases hexp : a.Expired cfg now
      · exact .inr (by rw [if_pos hexp, if_pos (.inl hexp)])
      · exact .inl (if_neg hexp)

theorem queue_enqueue (m : Memory) (t : Tagged) : ((m.enqueuePendingMessage t).getD m).queue =
    if m.queue.length < maxPendingMessages then m.queue ++ [t] else m.queue := by
  have hlength : m.data.pendingMessages.length = m.queue.length := by rw [← m.queued, length_map]
  rw [Memory.enqueuePendingMessage, ← hlength]
  split <;> rfl

theorem queue_requeue (cfg : AckConfig) (batch : List Tagged) (n : Nat) {c : Threads}
    (hc : c.checker = .requeueing batch) :
    ((replicate (batch.length + 1 + n) Event.requeue).foldl (step cfg) c).memory.queue =
      c.memory.queue ++ batch.take (maxPendingMessages - c.memory.queue.length) := by
  induction batch generalizing c with
  | nil =>
    have hidle : ∀ (n : Nat) (c : Threads), c.checker = .idle →
        (replicate n Event.requeue).foldl (step cfg) c = c := by
      intro n
      induction n with
      | zero => exact fun _ _ => rfl
      | succ n ih =>
        intro c hc
        have hstep : step cfg c .requeue = c := by simp only [step, hc]
        rw [replicate_succ, foldl_cons, hstep, ih c hc]
    have hstep : step cfg c .requeue = { c with checker := .idle } := by simp only [step, hc]
    rw [Nat.add_comm, length_nil, Nat.zero_add, replicate_succ, foldl_cons, hstep, hidle n _ rfl,
      take_nil, append_nil]
  | cons t batch ih =>
    have hstep : step cfg c .requeue =
        { c with memory := (c.memory.enqueuePendingMessage t).getD c.memory, checker := .requeueing batch } := by
      simp only [step, hc]
    have hcount : (t :: batch).length + 1 + n = batch.length + 1 + n + 1 := by
      rw [length_cons]
      omega
    rw [hcount, replicate_succ, foldl_cons, hstep, ih rfl]
    rw [queue_enqueue]
    by_cases hroom : c.memory.queue.length < maxPendingMessages
    · obtain ⟨k, hk⟩ := Nat.exists_eq_add_of_lt hroom
      rw [if_pos hroom, append_assoc, length_append, length_singleton,
        show maxPendingMessages - (c.memory.queue.length + 1) = k by omega,
        show maxPendingMessages - c.memory.queue.length = k + 1 by omega, take_succ_cons, singleton_append]
    · rw [if_neg hroom, Nat.sub_eq_zero_of_le (Nat.not_lt.mp hroom), take_zero, take_zero]

def checkerRound (now : Nat) : List Event := .check now :: .collect :: replicate (maxPendingAcks + 1) .requeue

theorem queue_checkerRound (hidle : c.checker = .idle) (h : 0 < (c.memory.checkAckTimeouts cfg now).1) :
    (step cfg (step cfg c (.check now)) .collect).checker =
        .requeueing (c.memory.checkAckTimeouts cfg now).2.collectRetryableMessages ∧
      ((checkerRound now).foldl (step cfg) c).memory.queue = c.memory.queue ++
        (c.memory.checkAckTimeouts cfg now).2.collectRetryableMessages.take
          (maxPendingMessages - c.memory.queue.length) := by
  have hcheck : step cfg c (.check now) =
      { c with memory := (c.memory.checkAckTimeouts cfg now).2, checker := .expired } := by
    simp only [step, hidle, if_neg (Int.not_lt.mpr h.le), if_pos h]
  have hcollect : step cfg (step cfg c (.check now)) .collect = { c with
      memory := (c.memory.checkAckTimeouts cfg now).2
      checker := .requeueing (c.memory.checkAckTimeouts cfg now).2.collectRetryableMessages } := by
    rw [hcheck]
    rfl
  have hqueue : (c.memory.checkAckTimeouts cfg now).2.queue = c.memory.queue :=
    (Memory.checkSlots_spec cfg now (finRange maxPendingAcks) 0 c.memory).1.queue
  have hlength : (c.memory.checkAckTimeouts cfg now).2.collectRetryableMessages.length ≤ maxPendingAcks :=
    (List.length_filterMap_le _ _).trans (length_finRange).le
  obtain ⟨n, hn⟩ := Nat.exists_eq_add_of_le hlength
  refine ⟨by rw [hcollect], ?_⟩
  have hrun := queue_requeue cfg _ n (congrArg Threads.checker hcollect)
  rw [Nat.add_right_comm, ← hn, hcollect] at hrun
  rw [checkerRound, foldl_cons, foldl_cons, hcollect, hrun]
  rw [hqueue]

/-- The checker sends again what has just expired, and nothing else, exactly when no
entry that still has time was sent again before; and all of it gets into the queue
exactly when there is room for it. -/
theorem retransmits_expired_iff (cfg : AckConfig) (now : Nat) (c : Threads) (hidle : c.checker = .idle)
    (hasks : 0 < (c.memory.checkAckTimeouts cfg now).1) :
    ((step cfg (step cfg c (.check now)) .collect).checker = .requeueing (c.memory.expired cfg now) ↔
      ∀ i a, c.memory.acks i = some a → ¬ a.Expired cfg now → a.retryCount = 0) ∧
    ∀ batch, (step cfg (step cfg c (.check now)) .collect).checker = .requeueing batch →
      (((checkerRound now).foldl (step cfg) c).memory.queue = c.memory.queue ++ batch ↔
        c.memory.queue.length + batch.length ≤ maxPendingMessages) := by
  obtain ⟨hcollect, hqueue⟩ := queue_checkerRound hidle hasks
  refine ⟨?_, fun batch hbatch => ?_⟩
  · rw [hcollect, Checker.requeueing.injEq]
    exact collect_eq_expired_iff hasks
  · cases hcollect.symm.trans hbatch
    rw [hqueue, append_cancel_left_eq, take_eq_self_iff]
    have hbound : c.memory.queue.length ≤ maxPendingMessages := by
      rw [← length_map (f := Tagged.message), c.memory.queued]
      exact c.memory.data.bounded
    omega

def updateCreated (stamp : String) : List Event := [.timer .inventoryUpdate, .child stamp, .child "", .child stamp]

def updateSent (stamp : String) (now : Nat) : List Event :=
  updateCreated stamp ++ [.pop, .send true, .pop, .send true, .track now]

def twoUpdates : Threads :=
  (updateSent "2025-11-03T10:15:30.123Z" 0 ++ updateSent "2025-11-03T10:15:31.123Z" 1000).foldl (step defaultConfig)
    (start hub "hub_1")

def Checker.isIdle : Checker → Bool
  | .idle => true
  | _ => false

theorem eq_idle_of_isIdle {checker : Checker} (h : checker.isIdle = true) : checker = .idle := by
  cases checker with
  | idle => rfl
  | expired | requeueing | stopped => cases h

theorem first_update_sent_again : (step defaultConfig (step defaultConfig twoUpdates (.check 5000)) .collect).checker =
      .requeueing (twoUpdates.memory.expired defaultConfig 5000) := by
  have hfresh : ∀ i, ∀ a ∈ twoUpdates.memory.acks i, ¬ a.Expired defaultConfig 5000 → a.retryCount = 0 := by
    decide +kernel
  exact (retransmits_expired_iff defaultConfig 5000 twoUpdates (eq_idle_of_isIdle (by decide +kernel))
    (by decide +kernel)).1.mpr hfresh

def firstRetried : Threads :=
  (checkerRound 5000 ++ [Event.pop, .send true, .track 5001]).foldl (step defaultConfig) twoUpdates

def queueFull : Threads :=
  ((replicate 5 "2025-11-03T10:15:32.123Z").flatMap updateCreated).foldl (step defaultConfig) twoUpdates

/-- Only the second update has expired, but both are sent again; and into a full queue
none is put that has expired. -/
theorem waiting_update_sent_again :
    (firstRetried.checker = .idle ∧ 0 < (firstRetried.memory.checkAckTimeouts defaultConfig 6000).1 ∧
      (firstRetried.memory.expired defaultConfig 6000).map Tagged.id = [3] ∧
      ((checkerRound 6000).foldl (step defaultConfig) firstRetried).memory.queue.map Tagged.id = [1, 3]) ∧
    queueFull.checker = .idle ∧ 0 < (queueFull.memory.checkAckTimeouts defaultConfig 5000).1 ∧
      (queueFull.memory.expired defaultConfig 5000).map Tagged.id = [1] ∧
      ((checkerRound 5000).foldl (step defaultConfig) queueFull).memory.queue.map Tagged.id =
        [4, 5, 6, 7, 8, 9, 10, 11, 12, 13] := by
  refine ⟨⟨eq_idle_of_isIdle ?_, ?_⟩, eq_idle_of_isIdle ?_, ?_⟩ <;> decide +kernel

variable {acked : Tagged} {k : Nat}

def NeverAgain (k : Nat) (c c' : Threads) : Prop :=
  (∀ i t, c'.memory.keeps i = some t → t.id ≠ k) ∧ ∃ new, c'.handed = c.handed ++ new ∧ ∀ t ∈ new, t.id ≠ k

/-- The message waits in no queue, no thread has it in its hands, and no slot keeps it
but the one that its acknowledgement finds. -/
def Settled (c : Threads) (acked : Tagged) : Prop :=
  ∀ t, t.id = acked.id → t ∉ c.memory.queue ∧ ¬ c.sender.Holds t ∧ ¬ c.checker.Holds t ∧
    ∀ i, c.memory.keeps i = some t → c.memory.slotOf acked.message.timestamp = some i

def Gone (k : Nat) (c : Threads) : Prop := k < c.created.length ∧ ∀ t, Held c t → t.id ≠ k

theorem Turn.gone (h : Turn cfg c e c') (hk : Gone k c) : Gone k c' := by
  refine ⟨hk.1.trans_le h.created.length_le, fun t ht => ?_⟩
  rcases h.held ht with hold | hnew
  · exact hk.2 t hold
  · rw [hnew.id]
    exact hk.1.ne'

theorem Turn.neverAgain (h : Turn cfg c e c') (hk : Gone k c) : NeverAgain k c c' := by
  refine ⟨fun i t ht => (h.gone hk).2 t (.inl (.inr ⟨i, ht⟩)), ?_⟩
  rcases h.handed with heq | ⟨t, hpopped, heq⟩
  · exact ⟨[], heq.trans (append_nil _).symm, forall_mem_nil _⟩
  · refine ⟨[t], heq, forall_mem_singleton.mpr (hk.2 t (.inr (.inl ?_)))⟩
    rw [hpopped]
    rfl

theorem NeverAgain.trans {c'' : Threads} (h : NeverAgain k c c') (h' : NeverAgain k c' c'') : NeverAgain k c c'' := by
  obtain ⟨new, heq, hnew⟩ := h.2
  obtain ⟨new', heq', hnew'⟩ := h'.2
  exact ⟨h'.1, new ++ new', by rw [heq', heq, append_assoc], forall_mem_append.mpr ⟨hnew, hnew'⟩⟩

theorem neverAgain_foldl (hk : Gone k c) (events : List Event) : NeverAgain k c (events.foldl (step cfg) c) := by
  induction events generalizing c with
  | nil => exact ⟨fun i t ht => hk.2 t (.inl (.inr ⟨i, ht⟩)), [], (append_nil _).symm, forall_mem_nil _⟩
  | cons e events ih =>
    have hturn := turn_step cfg c e
    exact (hturn.neverAgain hk).trans (ih (hturn.gone hk))

theorem gone_of_settled (hc : Genuine c) (hacked : acked ∈ c.handed) (hsettled : Settled c acked) (rest : List Instr) :
    Gone acked.id { c with memory := c.memory.removePendingAck acked.message.timestamp, receiver := rest } := by
  refine ⟨(List.getElem?_eq_some_iff.mp (hc.handed acked hacked)).1, ?_⟩
  rintro t ht hid
  obtain ⟨hqueue, hsender, hchecker, hslot⟩ := hsettled t hid
  rcases ht with (hmem | ⟨i, hi⟩) | hs | hch
  · rw [(Memory.apart_removePendingAck _ _).queue] at hmem
    exact hqueue hmem
  · rw [Memory.keeps_removePendingAck] at hi
    split at hi
    · cases hi
    · rename_i hne
      exact hne (hslot i hi)
  · exact hsender hs
  · exact hchecker hch

theorem genuine_foldl (cfg : AckConfig) (hc : Genuine c) (events : List Event) :
    Genuine (events.foldl (step cfg) c) := by
  induction events generalizing c with
  | nil => exact hc
  | cons e events ih => exact ih (genuine_step cfg c e hc)

/-- When the receiver processes the acknowledgement of a message of which the slot
that it clears holds the only copy, the message is never sent nor tracked again. -/
theorem acked_never_again (cfg : AckConfig) (clientRole clientId : String) (before after : List Event) (stamp : String)
    (acked : Tagged) (rest : List Instr)
    (hack : (before.foldl (step cfg) (start clientRole clientId)).receiver = .remove acked :: rest)
    (hsettled : Settled (before.foldl (step cfg) (start clientRole clientId)) acked) :
    NeverAgain acked.id (before.foldl (step cfg) (start clientRole clientId))
      (after.foldl (step cfg) (step cfg (before.foldl (step cfg) (start clientRole clientId)) (.receiver stamp))) := by
  have hc := genuine_foldl cfg (genuine_start clientRole clientId) before
  generalize before.foldl (step cfg) (start clientRole clientId) = c at hack hsettled hc
  have hgone := gone_of_settled hc (hc.acked acked (hack ▸ mem_cons_self)) hsettled rest
  have hstep : step cfg c (.receiver stamp) =
      { c with memory := c.memory.removePendingAck acked.message.timestamp, receiver := rest } := by
    simp only [step, hack, Instr.exec]
  rw [hstep]
  exact neverAgain_foldl hgone after

theorem settled_of_idle (hqueue : c.memory.queue = []) (hsender : c.sender = .idle) (hchecker : c.checker = .idle)
    (hslot : ∀ i, (c.memory.keeps i).isSome → c.memory.slotOf acked.message.timestamp = some i) : Settled c acked := by
  intro t _
  refine ⟨by rw [hqueue]; exact not_mem_nil, by rw [hsender]; exact id, by rw [hchecker]; exact id, ?_⟩
  intro i hi
  exact hslot i (by rw [hi]; rfl)

def ackAfterTracking : List Event :=
  [.timer .inventoryUpdate, .child "2025-11-03T10:15:30.123Z", .child "", .child "2025-11-03T10:15:30.124Z", .pop,
    .send true, .pop, .send true, .track 0, .receiveAck 1]

def retransmission : List Event := [.check 6000, .collect, .requeue, .requeue, .pop, .send true, .track 6001]

theorem tracked_update_acked : NeverAgain 1 (ackAfterTracking.foldl (step defaultConfig) (start hub "hub_1"))
    (retransmission.foldl (step defaultConfig)
      (step defaultConfig (ackAfterTracking.foldl (step defaultConfig) (start hub "hub_1")) (.receiver ""))) := by
  obtain ⟨acked, hid, hstamp, hack⟩ : ∃ acked, acked.id = 1 ∧ acked.message.timestamp = "2025-11-03T10:15:30.124Z" ∧
      (ackAfterTracking.foldl (step defaultConfig) (start hub "hub_1")).receiver = [.remove acked] :=
    ⟨_, rfl, rfl, rfl⟩
  rw [← hid]
  refine acked_never_again defaultConfig hub "hub_1" ackAfterTracking retransmission "" acked [] hack
    (settled_of_idle rfl rfl rfl ?_)
  rw [hstamp]
  decide +kernel

def ackBeforeTracking : List Event :=
  [.timer .inventoryUpdate, .child "2025-11-03T10:15:30.123Z", .child "", .child "2025-11-03T10:15:30.124Z", .pop,
    .send true, .pop, .send true, .receiveAck 1]

theorem ack_before_tracking :
    (ackBeforeTracking.foldl (step defaultConfig) (start hub "hub_1")).receiver.map Instr.ackedId = [some 1] ∧
    ((.track 0 :: retransmission).foldl (step defaultConfig)
      (step defaultConfig (ackBeforeTracking.foldl (step defaultConfig) (start hub "hub_1")) (.receiver ""))).handed.map
        Tagged.id = [0, 1, 1] ∧ ¬ NeverAgain 1 (ackBeforeTracking.foldl (step defaultConfig) (start hub "hub_1"))
      ((.track 0 :: retransmission).foldl (step defaultConfig)
        (step defaultConfig (ackBeforeTracking.foldl (step defaultConfig) (start hub "hub_1")) (.receiver ""))) := by
  have hslot : (((.track 0 :: retransmission).foldl (step defaultConfig)
      (step defaultConfig (ackBeforeTracking.foldl (step defaultConfig) (start hub "hub_1"))
        (.receiver ""))).memory.keeps ⟨0, Nat.succ_pos 9⟩).map Tagged.id = some 1 := by
    decide +kernel
  refine ⟨by decide +kernel, by decide +kernel, fun h => ?_⟩
  obtain ⟨t, ht, hid⟩ := map_eq_some_iff.mp hslot
  exact h.1 _ t ht hid

end Logistics.ClientThreads
