import Logistics.RowVersions
import Logistics.Worker

namespace Logistics.TimerManager

open KeyedTable RowVersions Worker List

inductive TimerType
  | ack
  | keepalive
  deriving DecidableEq, Repr

structure TimerKey where
  type : TimerType
  session : String
  timestamp : String
  deriving DecidableEq, Repr

inductive Callback
  | ackTimeout (sessionId timerKey : String) (payload : Frame) (retryCount maxRetries : Nat)
  | keepaliveTimeout (sessionId : String)

structure TimerEntry where
  key : TimerKey
  deadline : Nat
  callback : Callback

/-- The multimap and its index are one table, with the entries in the order in
which they were inserted. The timeouts of the keepalive timers are kept for
their resets; the callback kept with them is always that of the session. -/
structure Timers where
  entries : Table TimerEntry.key
  keepaliveTimeouts : Table (Prod.fst : String × Nat → String)

def start : Timers := ⟨.empty, .empty⟩

variable (t : Timers)

def cancelTimer (key : TimerKey) : Timers := { t with entries := t.entries.erase key }

def insertTimer (now : Nat) (key : TimerKey) (timeout : Nat) (callback : Callback) : Timers :=
  let cancelled := cancelTimer t key
  { cancelled with entries := cancelled.entries.put ⟨key, now + timeout * 10 ^ 9, callback⟩ }

def startAckTimer (now : Nat) (sessionId timestamp : String) (timeout : Nat) (callback : Callback) : Timers :=
  insertTimer t now ⟨.ack, sessionId, timestamp⟩ timeout callback

def cancelAckTimer (sessionId timestamp : String) : Timers := cancelTimer t ⟨.ack, sessionId, timestamp⟩

def cancelKeepaliveTimer (sessionId : String) : Timers :=
  { cancelTimer t ⟨.keepalive, sessionId, ""⟩ with keepaliveTimeouts := t.keepaliveTimeouts.erase sessionId }

def startKeepaliveTimer (now : Nat) (sessionId : String) (timeout : Nat) : Timers :=
  let cancelled := cancelKeepaliveTimer t sessionId
  let kept := { cancelled with keepaliveTimeouts := cancelled.keepaliveTimeouts.put (sessionId, timeout) }
  insertTimer kept now ⟨.keepalive, sessionId, ""⟩ timeout (.keepaliveTimeout sessionId)

def resetKeepaliveTimer (now : Nat) (sessionId : String) : Timers :=
  match t.keepaliveTimeouts.find? sessionId with
  | none => t
  | some kept => insertTimer t now ⟨.keepalive, sessionId, ""⟩ kept.2 (.keepaliveTimeout sessionId)

def clearSessionTimers (sessionId : String) : Timers where
  entries := ⟨t.entries.rows.filter fun e => e.key.session ≠ sessionId,
    t.entries.nodup.sublist (filter_sublist.map _)⟩
  keepaliveTimeouts := t.keepaliveTimeouts.erase sessionId

def dueEntries (now : Nat) : List TimerEntry :=
  (t.entries.rows.filter fun e => e.deadline ≤ now).insertionSort fun a b => a.deadline ≤ b.deadline

def withoutDue (now : Nat) : Timers :=
  { t with entries := ⟨t.entries.rows.filter fun e => now < e.deadline,
    t.entries.nodup.sublist (filter_sublist.map _)⟩ }

variable {t} {k : TimerKey} {e : TimerEntry}

theorem find?_insertTimer (now : Nat) (key : TimerKey) (timeout : Nat) (callback : Callback) (k : TimerKey) :
    (insertTimer t now key timeout callback).entries.find? k =
      if k = key then some ⟨key, now + timeout * 10 ^ 9, callback⟩ else t.entries.find? k := by
  simp only [insertTimer, find?_put]
  split
  · rfl
  · next hne => rw [cancelTimer, Table.find?_erase, if_neg hne]

theorem find?_cancelTimer (key k : TimerKey) :
    (cancelTimer t key).entries.find? k = if k = key then none else t.entries.find? k :=
  t.entries.find?_erase key k

theorem find?_startKeepaliveTimer (now : Nat) (sessionId : String) (timeout : Nat) (k : TimerKey) :
    (startKeepaliveTimer t now sessionId timeout).entries.find? k =
      if k = ⟨.keepalive, sessionId, ""⟩ then
        some ⟨⟨.keepalive, sessionId, ""⟩, now + timeout * 10 ^ 9, .keepaliveTimeout sessionId⟩
      else t.entries.find? k := by
  rw [startKeepaliveTimer, find?_insertTimer]
  split
  · rfl
  · next hne => exact (find?_cancelTimer _ _).trans (if_neg hne)

theorem find?_resetKeepaliveTimer (now : Nat) (sessionId : String) (hk : k.type = .ack) :
    (resetKeepaliveTimer t now sessionId).entries.find? k = t.entries.find? k := by
  rw [resetKeepaliveTimer]
  split
  · rfl
  · rw [find?_insertTimer, if_neg]
    rintro rfl
    cases hk

theorem find?_clearSessionTimers (sessionId : String) (k : TimerKey) :
    (clearSessionTimers t sessionId).entries.find? k = if k.session = sessionId then none else t.entries.find? k := by
  apply Option.ext
  intro e
  rw [Table.find?_eq_some, clearSessionTimers, mem_filter]
  split
  · next hs =>
    refine iff_of_false ?_ (by rintro ⟨⟩)
    rintro ⟨⟨-, hne⟩, rfl⟩
    exact absurd hs (by simpa using hne)
  · next hs =>
    rw [Table.find?_eq_some]
    constructor
    · rintro ⟨⟨he, -⟩, hk⟩
      exact ⟨he, hk⟩
    · rintro ⟨he, rfl⟩
      exact ⟨⟨he, by simpa using hs⟩, rfl⟩

variable {now : Nat}

theorem mem_dueEntries : e ∈ dueEntries t now ↔ e ∈ t.entries.rows ∧ e.deadline ≤ now := by
  rw [dueEntries, mem_insertionSort, mem_filter, decide_eq_true_iff]

theorem find?_of_mem_dueEntries (h : e ∈ dueEntries t now) : t.entries.find? e.key = some e :=
  Table.find?_eq_some.mpr ⟨(mem_dueEntries.mp h).1, rfl⟩

theorem find?_withoutDue :
    (withoutDue t now).entries.find? k = some e ↔ t.entries.find? k = some e ∧ now < e.deadline := by
  rw [Table.find?_eq_some, Table.find?_eq_some, withoutDue, mem_filter, decide_eq_true_iff, and_right_comm]

theorem nodup_dueEntries (t : Timers) (now : Nat) : ((dueEntries t now).map TimerEntry.key).Nodup := by
  rw [dueEntries, (perm_insertionSort _ _).map TimerEntry.key |>.nodup_iff]
  exact t.entries.nodup.sublist (filter_sublist.map _)

end Logistics.TimerManager
