import Logistics.Ipc
import Logistics.Reachability
import Logistics.RingLog
import Logistics.Semaphores

namespace Logistics.RequestRing

open RingLog Ipc List Function

inductive PushPc (α : Type)
  | idle
  | flag (slot : α)
  | load (slot : α)
  | copy (slot : α) (head : Nat)
  | store (slot : α) (head : Nat)
  | post (slot : α)

inductive WaitPc (α : Type)
  | idle
  | wait
  | interrupted
  | flag
  | load
  | cas (tail : Nat)
  | copy (tail : Nat)
  | post (tail : Nat) (slot : α)

inductive SignalPc
  | idle
  | posting (left : Nat)

/-- `pushed` and `delivered` record what has happened: the slots of the calls of
`push_request` that returned true, in order, and for each call of `wait_request`
that returned true the tail it claimed and the slot it handed out. -/
structure State (n : Nat) (α : Type) where
  reqHead : Nat
  reqTail : Nat
  semRequests : Nat
  semFreeReqSlots : Nat
  shutdownFlag : Bool
  reqRing : Nat → α
  reactor : PushPc α
  signal : SignalPc
  worker : Fin n → WaitPc α
  pushed : List α
  delivered : List (Nat × α)

variable {n : Nat} {α : Type}

def State.setWorker (s : State n α) (w : Fin n) (pc : WaitPc α) : State n α := { s with worker := update s.worker w pc }

structure Init (s : State n α) : Prop where
  reqHead : s.reqHead = 0
  reqTail : s.reqTail = 0
  semRequests : s.semRequests = 0
  semFreeReqSlots : s.semFreeReqSlots = requestQueueSize
  shutdownFlag : s.shutdownFlag = false
  reactor : s.reactor = .idle
  signal : s.signal = .idle
  worker : ∀ w, s.worker w = .idle
  pushed : s.pushed = []
  delivered : s.delivered = []

/-- One atomic step of one thread. A refused `sem_trywait` returns false at once
and changes nothing, so it needs no rule. -/
inductive Step : State n α → State n α → Prop
  | pushTryWait {s} (slot : α) (hp : s.reactor = .idle) (h : 0 < s.semFreeReqSlots) :
      Step s { s with semFreeReqSlots := s.semFreeReqSlots - 1, reactor := .flag slot }
  | pushRefused {s} {slot : α} (hp : s.reactor = .flag slot) (h : s.shutdownFlag = true) :
      Step s { s with reactor := .idle }
  | pushAccepted {s} {slot : α} (hp : s.reactor = .flag slot) (h : s.shutdownFlag = false) :
      Step s { s with reactor := .load slot }
  | pushLoad {s} {slot : α} (hp : s.reactor = .load slot) :
      Step s { s with reactor := .copy slot s.reqHead }
  | pushCopy {s} {slot : α} {head : Nat} (hp : s.reactor = .copy slot head) :
      Step s { s with reqRing := update s.reqRing (ringIndex requestQueueSize head) slot,
                      reactor := .store slot head }
  | pushStore {s} {slot : α} {head : Nat} (hp : s.reactor = .store slot head) :
      Step s { s with reqHead := head + 1, reactor := .post slot }
  | pushPost {s} {slot : α} (hp : s.reactor = .post slot) :
      Step s { s with semRequests := s.semRequests + 1, reactor := .idle, pushed := s.pushed ++ [slot] }
  | waitCall {s} (w : Fin n) (hp : s.worker w = .idle) : Step s (s.setWorker w .wait)
  | waitFailed {s} (w : Fin n) (hp : s.worker w = .wait) : Step s (s.setWorker w .idle)
  | waitInterrupted {s} (w : Fin n) (hp : s.worker w = .wait) : Step s (s.setWorker w .interrupted)
  | waitResume {s} (w : Fin n) (hp : s.worker w = .interrupted) :
      Step s (s.setWorker w (if s.shutdownFlag then .idle else .wait))
  | waitTake {s} (w : Fin n) (hp : s.worker w = .wait) (h : 0 < s.semRequests) :
      Step s { s.setWorker w .flag with semRequests := s.semRequests - 1 }
  | waitShutdown {s} (w : Fin n) (hp : s.worker w = .flag) (h : s.shutdownFlag = true) :
      Step s (s.setWorker w .idle)
  | waitAccepted {s} (w : Fin n) (hp : s.worker w = .flag) (h : s.shutdownFlag = false) :
      Step s (s.setWorker w .load)
  | waitLoad {s} (w : Fin n) (hp : s.worker w = .load) : Step s (s.setWorker w (.cas s.reqTail))
  | waitCasFailed {s} (w : Fin n) {tail : Nat} (hp : s.worker w = .cas tail) : Step s (s.setWorker w .load)
  | waitCas {s} (w : Fin n) {tail : Nat} (hp : s.worker w = .cas tail) (h : s.reqTail = tail) :
      Step s { s.setWorker w (.copy tail) with reqTail := tail + 1 }
  | waitCopy {s} (w : Fin n) {tail : Nat} (hp : s.worker w = .copy tail) :
      Step s (s.setWorker w (.post tail (s.reqRing (ringIndex requestQueueSize tail))))
  | waitPost {s} (w : Fin n) {tail : Nat} {slot : α} (hp : s.worker w = .post tail slot) :
      Step s { s.setWorker w .idle with semFreeReqSlots := s.semFreeReqSlots + 1,
                                        delivered := s.delivered ++ [(tail, slot)] }
  | signalFlag {s} (hp : s.signal = .idle) :
      Step s { s with shutdownFlag := true, signal := .posting requestQueueSize }
  | signalPost {s} {left : Nat} (hp : s.signal = .posting (left + 1)) :
      Step s { s with semRequests := s.semRequests + 1, signal := .posting left }
  | signalDone {s} (hp : s.signal = .posting 0) : Step s { s with signal := .idle }

structure Quiescent (s : State n α) : Prop where
  reactor : s.reactor = .idle
  worker : ∀ w, s.worker w = .idle ∨ s.worker w = .wait

def undelivered (s : State n α) : List α := window requestQueueSize s.reqRing s.reqTail s.reqHead

/-- What exactly-once delivery asks of a state: every call that returned true
handed out the pushed request of the index it claimed, no index was handed out
twice, a claimed slot that is still to be copied is intact, and between calls
the requests not delivered are those between tail and head. -/
structure ExactlyOnce (s : State n α) : Prop where
  delivers : ∀ p ∈ s.delivered, s.pushed[p.1]? = some p.2
  once : (s.delivered.map Prod.fst).Nodup
  intact : ∀ w i, s.worker w = .copy i → s.pushed[i]? = some (s.reqRing (ringIndex requestQueueSize i))
  settled : Quiescent s → (s.delivered.map Prod.snd ++ undelivered s).Perm s.pushed

/-- The slot copy of `push_request` finds no worker that has claimed the same
array position and not copied it out. -/
def CleanCopy (s t : State n α) : Prop :=
  ∀ slot head, s.reactor = .copy slot head → t.reactor = .store slot head →
    ∀ w i, s.worker w = .copy i → ringIndex requestQueueSize i ≠ ringIndex requestQueueSize head

open ThreadCount

def took : WaitPc α → Nat
  | .flag | .load | .cas _ => 1
  | _ => 0

def claiming : WaitPc α → Nat
  | .load | .cas _ => 1
  | _ => 0

def holding : WaitPc α → Nat
  | .copy _ | .post _ _ => 1
  | _ => 0

def claimed : WaitPc α → Option Nat
  | .copy i | .post i _ => some i
  | _ => none

def reserved : PushPc α → Nat
  | .flag _ | .load _ | .copy _ _ | .store _ _ => 1
  | _ => 0

def unposted : PushPc α → List α
  | .post slot => [slot]
  | _ => []

def stored (s : State n α) : List α := s.pushed ++ unposted s.reactor

structure Counters (s : State n α) : Prop where
  head : s.reqHead = (stored s).length
  claims : s.reqTail + total claiming s.worker ≤ s.pushed.length
  tokens : s.shutdownFlag = false → s.semRequests + s.reqTail + total took s.worker ≤ s.pushed.length
  free : s.semFreeReqSlots + reserved s.reactor + s.reqHead + total holding s.worker ≤ s.reqTail + requestQueueSize
  count : s.delivered.length + total holding s.worker = s.reqTail
  signalled : ∀ left, s.signal = .posting left → s.shutdownFlag = true

theorem claiming_le_took (pc : WaitPc α) : claiming pc ≤ took pc := by cases pc <;> simp [claiming, took]

theorem totals_update (pc : Fin n → WaitPc α) (w : Fin n) (b : WaitPc α) :
    total took (update pc w b) + took (pc w) = total took pc + took b ∧
    total claiming (update pc w b) + claiming (pc w) = total claiming pc + claiming b ∧
    total holding (update pc w b) + holding (pc w) = total holding pc + holding b :=
  ⟨total_update took pc w b, total_update claiming pc w b, total_update holding pc w b⟩

variable {s : State n α}

theorem Counters.init (h : Init s) : Counters s := by
  have ht (f : WaitPc α → Nat) (hf : f .idle = 0) : total f s.worker = 0 :=
    total_eq_zero f s.worker fun w => by rw [h.worker w, hf]
  constructor
  · simp [stored, unposted, h.reqHead, h.pushed, h.reactor]
  · simp [h.reqTail, ht claiming rfl]
  · simp [h.reqTail, h.semRequests, ht took rfl]
  · simp [h.reqTail, h.reqHead, h.semFreeReqSlots, h.reactor, reserved, ht holding rfl]
  · simp [h.delivered, h.reqTail, ht holding rfl]
  · simp [h.signal]

theorem Counters.move (h : Counters s) (w : Fin n) {a b : WaitPc α} (hp : s.worker w = a) (ht : took b ≤ took a)
    (hc : claiming b ≤ claiming a) (hh : holding b = holding a) : Counters (s.setWorker w b) := by
  obtain ⟨head, claims, tokens, free, count, signalled⟩ := h
  obtain ⟨et, ec, eh⟩ := totals_update s.worker w b
  rw [hp] at et ec eh
  refine ⟨head, ?_, fun hf => ?_, ?_, ?_, signalled⟩ <;> simp only [State.setWorker] at *
  · omega
  · have := tokens hf
    omega
  · omega
  · omega

theorem Counters.step {t : State n α} (hs : Step s t) (hv : ∀ x h, s.reactor = .store x h → h = s.reqHead)
    (h : Counters s) : Counters t := by
  have hmove := h.move
  obtain ⟨head, claims, tokens, free, count, signalled⟩ := h
  cases hs with
  | waitCall w hp | waitFailed w hp | waitInterrupted w hp | waitShutdown w hp _ | waitLoad w hp
  | waitCasFailed w hp | waitCopy w hp => exact hmove w hp (by simp [took]) (by simp [claiming]) rfl
  | waitResume w hp =>
    cases hf : s.shutdownFlag with
    | false | true => exact hmove w hp le_rfl le_rfl rfl
  | waitTake w hp hsem =>
    obtain ⟨et, ec, eh⟩ := totals_update s.worker w .flag
    simp only [hp, took, claiming, holding] at et ec eh
    refine ⟨head, ?_, fun hf => ?_, ?_, ?_, signalled⟩ <;> simp only [State.setWorker] at *
    · omega
    · have := tokens hf
      omega
    · omega
    · omega
  | waitAccepted w hp hflag =>
    obtain ⟨et, ec, eh⟩ := totals_update s.worker w .load
    have hlt : total claiming s.worker < total took s.worker :=
      Finset.sum_lt_sum (fun v _ => claiming_le_took (s.worker v)) ⟨w, Finset.mem_univ w, by simp [hp, claiming, took]⟩
    have htok := tokens hflag
    simp only [hp, took, claiming, holding] at et ec eh
    refine ⟨head, ?_, fun _ => ?_, ?_, ?_, signalled⟩ <;> simp only [State.setWorker] at * <;> omega
  | waitCas w hp htail =>
    obtain ⟨et, ec, eh⟩ := totals_update s.worker w (.copy s.reqTail)
    subst htail
    simp only [hp, took, claiming, holding] at et ec eh
    refine ⟨head, ?_, fun hf => ?_, ?_, ?_, signalled⟩ <;> simp only [State.setWorker] at *
    · omega
    · have := tokens hf
      omega
    · omega
    · omega
  | waitPost w hp =>
    obtain ⟨et, ec, eh⟩ := totals_update s.worker w .idle
    simp only [hp, took, claiming, holding] at et ec eh
    refine ⟨head, ?_, fun hf => ?_, ?_, ?_, signalled⟩ <;> simp only [State.setWorker] at *
    · omega
    · have := tokens hf
      omega
    · omega
    · simp only [length_append, length_singleton]
      omega
  | pushTryWait slot hp hf | pushRefused hp hf | pushAccepted hp hf | pushLoad hp | pushCopy hp =>
    simp only [stored, hp, unposted, reserved] at head free
    exact ⟨head, claims, tokens, by simp only [reserved]; omega, count, signalled⟩
  | @pushStore slot x hp =>
    have hx := hv _ _ hp
    simp only [stored, hp, unposted, reserved, append_nil] at head free
    refine ⟨by simp [stored, unposted, hx, head], claims, tokens, ?_, count, signalled⟩
    simp only [reserved]
    omega
  | pushPost hp =>
    simp only [stored, hp, unposted, reserved, length_append, length_singleton] at head free
    refine ⟨by simp [stored, unposted, head], ?_, fun hf => ?_, free, count, signalled⟩
    · simp only [length_append, length_singleton]
      omega
    · have := tokens hf
      simp only [length_append, length_singleton]
      omega
  | signalFlag hp => exact ⟨head, claims, fun hf => absurd hf (by simp), free, count, fun _ _ => rfl⟩
  | signalDone hp => exact ⟨head, claims, tokens, free, count, fun _ he => absurd he (by simp)⟩
  | signalPost hp =>
    have hf := signalled _ hp
    exact ⟨head, claims, fun he => absurd he (by simp [hf]), free, count, fun _ _ => hf⟩

end Logistics.RequestRing
