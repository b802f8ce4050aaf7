import Logistics.Ipc
import Logistics.Reachability
import Logistics.RingLog
import Logistics.Semaphores

namespace Logistics.ResponseRing

open Reachability RingLog Ipc ThreadCount List

inductive PushPc (α : Type)
  | idle
  | wait (slot : α)
  | interrupted (slot : α)
  | flag (slot : α)
  | lock (slot : α)
  | load (slot : α)
  | copy (slot : α) (head : Nat)
  | store (slot : α) (head : Nat)
  | unlock
  | notify

/-- Program points of the reactor in `on_response_ready`: the points after
`read` belong to the drain loop and the calls of `pop_response` in it. -/
inductive ReactorPc (α : Type)
  | idle
  | read
  | loadTail
  | loadHead (tail : Nat)
  | test (tail head : Nat)
  | copy (tail : Nat)
  | store (tail : Nat) (slot : α)
  | post (slot : α)
  | dispatch (slot : α)

inductive SignalPc
  | idle
  | posting (left : Nat)

structure State (n : Nat) (α : Type) where
  respHead : Nat
  respTail : Nat
  semFreeRespSlots : Nat
  respMutex : Option (Fin n)
  shutdownFlag : Bool
  respRing : Nat → α
  eventfd : Nat
  reactor : ReactorPc α
  signal : SignalPc
  pusher : Fin n → PushPc α
  stored : List α
  popped : List α

variable {n : Nat} {α : Type}

def State.setPusher (s : State n α) (w : Fin n) (pc : PushPc α) : State n α :=
  { s with pusher := Function.update s.pusher w pc }

/-- Adding one to a non-blocking eventfd fails when the counter is full. -/
def eventfdWrite (counter : Nat) : Nat := if counter < 2 ^ 64 - 2 then counter + 1 else counter

structure Init (s : State n α) : Prop where
  respHead : s.respHead = 0
  respTail : s.respTail = 0
  semFreeRespSlots : s.semFreeRespSlots = responseQueueSize
  respMutex : s.respMutex = none
  shutdownFlag : s.shutdownFlag = false
  eventfd : s.eventfd = 0
  reactor : s.reactor = .idle
  signal : s.signal = .idle
  pusher : ∀ w, s.pusher w = .idle
  stored : s.stored = []
  popped : s.popped = []

inductive Step : State n α → State n α → Prop
  | pushCall {s} (w : Fin n) (slot : α) (hp : s.pusher w = .idle) : Step s (s.setPusher w (.wait slot))
  | pushFailed {s} (w : Fin n) {slot : α} (hp : s.pusher w = .wait slot) : Step s (s.setPusher w .idle)
  | pushInterrupted {s} (w : Fin n) {slot : α} (hp : s.pusher w = .wait slot) :
      Step s (s.setPusher w (.interrupted slot))
  | pushResume {s} (w : Fin n) {slot : α} (hp : s.pusher w = .interrupted slot) :
      Step s (s.setPusher w (if s.shutdownFlag then .idle else .wait slot))
  | pushTake {s} (w : Fin n) {slot : α} (hp : s.pusher w = .wait slot) (h : 0 < s.semFreeRespSlots) :
      Step s { s.setPusher w (.flag slot) with semFreeRespSlots := s.semFreeRespSlots - 1 }
  | pushShutdown {s} (w : Fin n) {slot : α} (hp : s.pusher w = .flag slot) (h : s.shutdownFlag = true) :
      Step s (s.setPusher w .idle)
  | pushAccepted {s} (w : Fin n) {slot : α} (hp : s.pusher w = .flag slot) (h : s.shutdownFlag = false) :
      Step s (s.setPusher w (.lock slot))
  | pushLock {s} (w : Fin n) {slot : α} (hp : s.pusher w = .lock slot) (h : s.respMutex = none) :
      Step s { s.setPusher w (.load slot) with respMutex := some w }
  | pushLoad {s} (w : Fin n) {slot : α} (hp : s.pusher w = .load slot) :
      Step s (s.setPusher w (.copy slot s.respHead))
  | pushCopy {s} (w : Fin n) {slot : α} {head : Nat} (hp : s.pusher w = .copy slot head) :
      Step s { s.setPusher w (.store slot head) with
                 respRing := Function.update s.respRing (ringIndex responseQueueSize head) slot }
  | pushStore {s} (w : Fin n) {slot : α} {head : Nat} (hp : s.pusher w = .store slot head) :
      Step s { s.setPusher w .unlock with respHead := head + 1, stored := s.stored ++ [slot] }
  | pushUnlock {s} (w : Fin n) (hp : s.pusher w = .unlock) :
      Step s { s.setPusher w .notify with respMutex := none }
  | pushNotify {s} (w : Fin n) (hp : s.pusher w = .notify) :
      Step s { s.setPusher w .idle with eventfd := eventfdWrite s.eventfd }
  | ready {s} (hp : s.reactor = .idle) : Step s { s with reactor := .read }
  | readEventfd {s} (hp : s.reactor = .read) : Step s { s with eventfd := 0, reactor := .loadTail }
  | popLoadTail {s} (hp : s.reactor = .loadTail) : Step s { s with reactor := .loadHead s.respTail }
  | popLoadHead {s} {tail : Nat} (hp : s.reactor = .loadHead tail) :
      Step s { s with reactor := .test tail s.respHead }
  | popEmpty {s} {tail head : Nat} (hp : s.reactor = .test tail head) (h : head ≤ tail) :
      Step s { s with reactor := .idle }
  | popNonempty {s} {tail head : Nat} (hp : s.reactor = .test tail head) (h : tail < head) :
      Step s { s with reactor := .copy tail }
  | popCopy {s} {tail : Nat} (hp : s.reactor = .copy tail) :
      Step s { s with reactor := .store tail (s.respRing (ringIndex responseQueueSize tail)) }
  | popStore {s} {tail : Nat} {slot : α} (hp : s.reactor = .store tail slot) :
      Step s { s with respTail := tail + 1, reactor := .post slot }
  | popPost {s} {slot : α} (hp : s.reactor = .post slot) :
      Step s { s with semFreeRespSlots := s.semFreeRespSlots + 1, reactor := .dispatch slot,
                      popped := s.popped ++ [slot] }
  | dispatched {s} {slot : α} (hp : s.reactor = .dispatch slot) : Step s { s with reactor := .loadTail }
  | signalFlag {s} (hp : s.signal = .idle) :
      Step s { s with shutdownFlag := true, signal := .posting responseQueueSize }
  | signalPost {s} {left : Nat} (hp : s.signal = .posting (left + 1)) :
      Step s { s with semFreeRespSlots := s.semFreeRespSlots + 1, signal := .posting left }
  | signalDone {s} (hp : s.signal = .posting 0) : Step s { s with signal := .idle }

def unread (s : State n α) : List α := window responseQueueSize s.respRing s.respTail s.respHead

def inFlight : ReactorPc α → List α
  | .post slot => [slot]
  | _ => []

def queueOf (s : State n α) : BoundedQueue.Queue α := ⟨unread s, s.stored, s.popped ++ inFlight s.reactor⟩

def Announcing (s : State n α) : Prop := ∃ w, s.pusher w = .unlock ∨ s.pusher w = .notify

def Draining : ReactorPc α → Prop
  | .idle | .read => False
  | _ => True

structure RefinesFifo (s : State n α) : Prop where
  queue : Reach BoundedQueue.Init (BoundedQueue.Step responseQueueSize) (queueOf s)
  order : s.popped <+: s.stored
  bounded : s.respHead - s.respTail ≤ responseQueueSize
  awake : s.respTail < s.respHead → 0 < s.eventfd ∨ Announcing s ∨ Draining s.reactor

open ThreadCount

def token : PushPc α → Nat
  | .flag _ | .lock _ | .load _ | .copy _ _ | .store _ _ => 1
  | _ => 0

def admitted : PushPc α → Nat
  | .lock _ | .load _ | .copy _ _ | .store _ _ => 1
  | _ => 0

def inside : PushPc α → Bool
  | .load _ | .copy _ _ | .store _ _ | .unlock => true
  | _ => false

structure Counters (s : State n α) : Prop where
  free : s.shutdownFlag = false → s.semFreeRespSlots + total token s.pusher + s.respHead +
    (inFlight s.reactor).length ≤ s.respTail + responseQueueSize
  room : total admitted s.pusher + s.respHead ≤ s.respTail + responseQueueSize
  signalled : ∀ left, s.signal = .posting left → s.shutdownFlag = true

theorem admitted_le_token (pc : PushPc α) : admitted pc ≤ token pc := by cases pc <;> simp [admitted, token]

variable {s : State n α}

theorem Counters.init (h : Init s) : Counters s := by
  have ht (f : PushPc α → Nat) (hf : f .idle = 0) : total f s.pusher = 0 :=
    total_eq_zero f s.pusher fun w => by rw [h.pusher w, hf]
  constructor
  · simp [h.respHead, h.respTail, h.semFreeRespSlots, h.reactor, inFlight, ht token rfl]
  · simp [h.respHead, h.respTail, ht admitted rfl]
  · simp [h.signal]

theorem Counters.move (h : Counters s) (w : Fin n) {a b : PushPc α} (hp : s.pusher w = a)
    (ht : token b ≤ token a) (ha : admitted b ≤ admitted a) : Counters (s.setPusher w b) := by
  have et := total_update token s.pusher w b
  have ea := total_update admitted s.pusher w b
  rw [hp] at et ea
  refine ⟨fun hf => ?_, ?_, h.signalled⟩ <;> simp only [State.setPusher]
  · have := h.free hf
    omega
  · have := h.room
    omega

structure Contents (s : State n α) : Prop where
  owner : ∀ w, inside (s.pusher w) = true → s.respMutex = some w
  copyHead : ∀ w x h, s.pusher w = .copy x h → h = s.respHead
  storeHead : ∀ w x h, s.pusher w = .store x h → h = s.respHead ∧ s.respRing (h % responseQueueSize) = x
  length : s.stored.length = s.respHead
  ring : ∀ i, s.respTail ≤ i → i < s.respHead → Holds responseQueueSize s.respRing s.stored i

structure Drain (s : State n α) : Prop where
  loadHead : ∀ t, s.reactor = .loadHead t → t = s.respTail
  test : ∀ t h, s.reactor = .test t h → t = s.respTail ∧ h ≤ s.respHead
  copy : ∀ t, s.reactor = .copy t → t = s.respTail ∧ t < s.respHead
  store : ∀ t x, s.reactor = .store t x → t = s.respTail ∧ s.stored[t]? = some x
  behind : s.respTail ≤ s.respHead
  popped : s.popped ++ inFlight s.reactor = s.stored.take s.respTail

theorem Counters.step {t : State n α} (hs : Step s t) (hc : Contents s) (hd : Drain s) (h : Counters s) :
    Counters t := by
  cases hs with
  | pushCall w slot hp | pushFailed w hp | pushInterrupted w hp | pushShutdown w hp _ | pushLoad w hp =>
    exact h.move w hp (by simp [token]) (by simp [admitted])
  | pushResume w hp => exact h.move w hp (by split <;> simp [token]) (by split <;> simp [admitted])
  | @pushTake w slot hp hpos =>
    have ht := total_update token s.pusher w (.flag slot)
    have ha := total_update admitted s.pusher w (.flag slot)
    simp only [token, admitted] at ht ha
    refine ⟨fun hf => ?_, ?_, h.signalled⟩ <;> simp only [State.setPusher]
    · have := h.free hf
      omega
    · have := h.room
      omega
  | @pushAccepted w slot hp hf =>
    have ht := total_update token s.pusher w (.lock slot)
    rw [hp] at ht
    simp only [token] at ht
    have hle : total admitted (Function.update s.pusher w (.lock slot)) ≤
        total token (Function.update s.pusher w (.lock slot)) :=
      Finset.sum_le_sum fun _ _ => admitted_le_token _
    have hfree := h.free hf
    refine ⟨fun _ => ?_, ?_, h.signalled⟩ <;> simp only [State.setPusher] <;> omega
  | pushLock w hp _ | pushCopy w hp | pushUnlock w hp | pushNotify w hp =>
    exact ⟨(h.move w hp (by simp [token]) (by simp [admitted])).free,
      (h.move w hp (by simp [token]) (by simp [admitted])).room, h.signalled⟩
  | @pushStore w slot head hp =>
    have hhead := (hc.storeHead w slot head hp).1
    have ht := total_update token s.pusher w .unlock
    have ha := total_update admitted s.pusher w .unlock
    rw [hp] at ht ha
    simp only [token, admitted] at ht ha
    refine ⟨fun hf => ?_, ?_, h.signalled⟩ <;> simp only [State.setPusher]
    · have := h.free hf
      omega
    · have := h.room
      omega
  | ready hp | readEventfd hp | popLoadTail hp | popLoadHead hp | popEmpty hp _ | popNonempty hp _ | popCopy hp
  | dispatched hp =>
    have hf := h.free
    rw [hp] at hf
    exact ⟨hf, h.room, h.signalled⟩
  | @popStore tail slot hp =>
    have ht := (hd.store tail slot hp).1
    have hf := h.free
    refine ⟨fun hflag => ?_, ?_, h.signalled⟩
    · have := hf hflag
      simp only [inFlight, length_singleton] at this ⊢
      omega
    · have := h.room
      simp only
      omega
  | popPost hp =>
    have hf := h.free
    rw [hp] at hf
    refine ⟨fun hflag => ?_, h.room, h.signalled⟩
    have := hf hflag
    simp only [inFlight, length_nil, length_singleton] at this ⊢
    omega
  | signalFlag hp => exact ⟨by simp, h.room, by simp⟩
  | signalPost hp =>
    have hflag := h.signalled _ hp
    exact ⟨by simp [hflag], h.room, fun _ _ => hflag⟩
  | signalDone hp => exact ⟨h.free, h.room, by simp⟩

theorem Contents.init (h : Init s) : Contents s := by
  constructor
  · simp [h.pusher, inside]
  · simp [h.pusher]
  · simp [h.pusher]
  · simp [h.stored, h.respHead]
  · intro i _ hi
    simp [h.respHead] at hi

variable {w : Fin n}

theorem Contents.only (h : Contents s) {v : Fin n} (hv : inside (s.pusher v) = true)
    (hw : inside (s.pusher w) = true) : v = w :=
  Option.some_injective _ ((h.owner v hv).symm.trans (h.owner w hw))

theorem Contents.move (h : Contents s) (w : Fin n) (b : PushPc α)
    (hin : inside b = true → s.respMutex = some w) (hcopy : ∀ x k, b = .copy x k → k = s.respHead)
    (hstore : ∀ x k, b = .store x k → k = s.respHead ∧ s.respRing (k % responseQueueSize) = x) :
    Contents (s.setPusher w b) := by
  refine ⟨fun v hv => ?_, fun v x k hv => ?_, fun v x k hv => ?_, h.length, h.ring⟩
  · by_cases he : v = w
    · subst v; exact hin (by simpa [State.setPusher] using hv)
    · exact h.owner v (by simpa [State.setPusher, he] using hv)
  · by_cases he : v = w
    · subst v; exact hcopy x k (by simpa [State.setPusher] using hv)
    · exact h.copyHead v x k (by simpa [State.setPusher, he] using hv)
  · by_cases he : v = w
    · subst v; exact hstore x k (by simpa [State.setPusher] using hv)
    · exact h.storeHead v x k (by simpa [State.setPusher, he] using hv)

theorem Contents.lock (h : Contents s) (w : Fin n) (hfree : s.respMutex = none) :
    Contents { s with respMutex := some w } := by
  refine ⟨fun v hv => ?_, h.copyHead, h.storeHead, h.length, h.ring⟩
  have hheld := h.owner v hv
  rw [hfree] at hheld
  cases hheld

theorem Contents.write (h : Contents s) (hc : Counters s) {slot : α} {head : Nat} (hp : s.pusher w = .copy slot head) :
    Contents { s with respRing := Function.update s.respRing (ringIndex responseQueueSize head) slot } := by
  have hhead := h.copyHead w slot head hp
  have hone := le_total admitted s.pusher w
  rw [hp, admitted] at hone
  have hroom := hc.room
  refine ⟨h.owner, h.copyHead, fun v x k hv => ?_, h.length, fun i hi hlt => ?_⟩
  · obtain rfl := h.only (v := v) (w := w) (by rw [hv]; rfl) (by rw [hp]; rfl)
    cases hp.symm.trans hv
  · rw [responseIndex_eq]
    refine (h.ring i hi hlt).update (mod_ne_of_window (by rw [hhead]; exact hlt) ?_) slot
    simp only at hi
    omega

theorem Contents.advance (h : Contents s) {slot : α} (hp : s.pusher w = .unlock)
    (hslot : s.respRing (s.respHead % responseQueueSize) = slot) :
    Contents { s with respHead := s.respHead + 1, stored := s.stored ++ [slot] } := by
  have hlen := h.length
  have hin : inside (s.pusher w) = true := by rw [hp]; rfl
  refine ⟨h.owner, fun v x k hv => ?_, fun v x k hv => ?_, by simp [hlen], fun i hi hlt => ?_⟩
  · obtain rfl := h.only (v := v) (w := w) (by rw [hv]; rfl) hin
    cases hp.symm.trans hv
  · obtain rfl := h.only (v := v) (w := w) (by rw [hv]; rfl) hin
    cases hp.symm.trans hv
  · by_cases he : i < s.respHead
    · exact (h.ring i hi he).append slot
    · obtain rfl : i = s.stored.length := by simp only at hlt; omega
      exact holds_last _ _ _ _ (by rw [hlen]; exact hslot)

variable {t : State n α}

theorem Contents.step (hs : Step s t) (hc : Counters s) (hd : Drain s) (h : Contents s) : Contents t := by
  cases hs with
  | pushCall w slot hp | pushFailed w hp | pushInterrupted w hp | pushShutdown w hp _ | pushAccepted w hp _ =>
    exact h.move w _ (by simp [inside]) (by simp) (by simp)
  | pushResume w hp => exact h.move w _ (by split <;> simp [inside]) (by split <;> simp) (by split <;> simp)
  | @pushTake w slot hp _ =>
    have hm := h.move w (.flag slot) (by simp [inside]) (by simp) (by simp)
    exact ⟨hm.owner, hm.copyHead, hm.storeHead, hm.length, hm.ring⟩
  | @pushLock w slot hp hfree => exact (h.lock w hfree).move w _ (fun _ => rfl) (by simp) (by simp)
  | @pushLoad w slot hp =>
    refine h.move w _ (fun _ => h.owner w (by rw [hp]; rfl)) ?_ (by simp)
    rintro x k ⟨⟩
    rfl
  | @pushCopy w slot head hp =>
    refine (h.write hc hp).move w _ (fun _ => h.owner w (by rw [hp]; rfl)) (by simp) ?_
    rintro x k ⟨⟩
    exact ⟨h.copyHead w slot head hp, by simp [responseIndex_eq]⟩
  | @pushStore w slot head hp =>
    obtain ⟨rfl, hslot⟩ := h.storeHead w slot head hp
    have hm := h.move w .unlock (fun _ => h.owner w (by rw [hp]; rfl)) (by simp) (by simp)
    exact hm.advance (w := w) (by simp [State.setPusher]) hslot
  | @pushUnlock w hp =>
    have hin : inside (s.pusher w) = true := by rw [hp]; rfl
    have hm := h.move w .notify (by simp [inside]) (by simp) (by simp)
    refine ⟨fun v hv => ?_, hm.copyHead, hm.storeHead, hm.length, hm.ring⟩
    by_cases he : v = w
    · subst v; simp [State.setPusher, inside] at hv
    · exact absurd (h.only (by simpa [State.setPusher, he] using hv) hin) he
  | @pushNotify w hp =>
    have hm := h.move w .idle (by simp [inside]) (by simp) (by simp)
    exact ⟨hm.owner, hm.copyHead, hm.storeHead, hm.length, hm.ring⟩
  | ready hp | readEventfd hp | popLoadTail hp | popLoadHead hp | popEmpty hp _ | popNonempty hp _ | popCopy hp
  | popPost hp | dispatched hp | signalFlag hp | signalPost hp | signalDone hp =>
    exact ⟨h.owner, h.copyHead, h.storeHead, h.length, h.ring⟩
  | @popStore tail slot hp =>
    have ht := (hd.store tail slot hp).1
    exact ⟨h.owner, h.copyHead, h.storeHead, h.length, fun i hi => h.ring i (by simp only at hi; omega)⟩

theorem Drain.init (h : Init s) : Drain s := by
  constructor
  · simp [h.reactor]
  · simp [h.reactor]
  · simp [h.reactor]
  · simp [h.reactor]
  · simp [h.respTail, h.respHead]
  · simp [h.popped, h.reactor, h.stored, inFlight]

theorem Drain.step (hs : Step s t) (hc : Contents s) (h : Drain s) : Drain t := by
  cases hs with
  | pushCall w slot _ | pushFailed w _ | pushInterrupted w _ | pushResume w _ | pushTake w _ _
  | pushShutdown w _ _ | pushAccepted w _ _ | pushLock w _ _ | pushLoad w _ | pushCopy w _ | pushUnlock w _
  | pushNotify w _ | signalFlag _ | signalPost _ | signalDone _ =>
    exact ⟨h.loadHead, h.test, h.copy, h.store, h.behind, h.popped⟩
  | @pushStore w slot head hp =>
    have hhead := (hc.storeHead w slot head hp).1
    have hlen := hc.length
    have hb := h.behind
    refine ⟨h.loadHead, fun t k hr => ?_, fun t hr => ?_, fun t x hr => ?_, ?_, ?_⟩
    · obtain ⟨ht, hk⟩ := h.test t k hr
      exact ⟨ht, by simp only; omega⟩
    · obtain ⟨ht, hk⟩ := h.copy t hr
      exact ⟨ht, by simp only; omega⟩
    · obtain ⟨ht, hx⟩ := h.store t x hr
      exact ⟨ht, by rw [getElem?_append_left (List.getElem?_eq_some_iff.mp hx).1, hx]⟩
    · simp only [State.setPusher]
      omega
    · simpa only [State.setPusher, take_append_of_le_length (hlen ▸ hb)] using h.popped
  | ready hp | readEventfd hp | dispatched hp | popEmpty hp _ =>
    have hpop := h.popped
    rw [hp] at hpop
    exact ⟨by simp, by simp, by simp, by simp, h.behind, hpop⟩
  | popLoadTail hp =>
    have hpop := h.popped
    rw [hp] at hpop
    exact ⟨by rintro t ⟨⟩; rfl, by simp, by simp, by simp, h.behind, hpop⟩
  | popLoadHead hp =>
    have hpop := h.popped
    rw [hp] at hpop
    exact ⟨by simp, by rintro t k ⟨⟩; exact ⟨h.loadHead _ hp, le_rfl⟩, by simp, by simp, h.behind, hpop⟩
  | popNonempty hp hlt =>
    have hpop := h.popped
    rw [hp] at hpop
    obtain ⟨ht, hk⟩ := h.test _ _ hp
    exact ⟨by simp, by simp, by rintro t ⟨⟩; exact ⟨ht, hlt.trans_le hk⟩, by simp, h.behind, hpop⟩
  | @popCopy tail hp =>
    have hpop := h.popped
    rw [hp] at hpop
    obtain ⟨ht, hk⟩ := h.copy _ hp
    refine ⟨by simp, by simp, by simp, ?_, h.behind, hpop⟩
    rintro t x ⟨⟩
    refine ⟨ht, ?_⟩
    rw [responseIndex_eq]
    exact hc.ring tail ht.ge hk
  | @popStore tail slot hp =>
    have hpop := h.popped
    obtain ⟨ht, hx⟩ := h.store _ _ hp
    subst ht
    rw [hp] at hpop
    simp only [inFlight, append_nil] at hpop
    refine ⟨by simp, by simp, by simp, by simp, ?_, ?_⟩
    · have := (List.getElem?_eq_some_iff.mp hx).1
      simp only
      have := hc.length
      omega
    · simp only [inFlight, hpop]
      rw [take_add_one, hx]
      rfl
  | popPost hp =>
    have hpop := h.popped
    rw [hp] at hpop
    exact ⟨by simp, by simp, by simp, by simp, h.behind, by simpa [inFlight] using hpop⟩

open Reachability

structure Wake (s : State n α) : Prop where
  awake : s.respTail < s.respHead → 0 < s.eventfd ∨ Announcing s ∨ Draining s.reactor
  test : ∀ t h, s.reactor = .test t h → h < s.respHead → 0 < s.eventfd ∨ Announcing s

theorem eventfdWrite_pos (counter : Nat) : 0 < eventfdWrite counter := by
  unfold eventfdWrite
  split <;> omega

variable {s : State n α}

theorem Announcing.move (h : Announcing s) (w : Fin n) {a : PushPc α} (b : PushPc α)
    (hp : s.pusher w = a) (hu : a ≠ .unlock) (hn : a ≠ .notify) : Announcing (s.setPusher w b) := by
  obtain ⟨v, hv⟩ := h
  have hne : v ≠ w := by
    rintro rfl
    rcases hv with hv | hv
    · exact hu (hp.symm.trans hv)
    · exact hn (hp.symm.trans hv)
  exact ⟨v, by simpa [State.setPusher, hne] using hv⟩

theorem Wake.init (h : Init s) : Wake s := by
  constructor
  · simp [h.respTail, h.respHead]
  · simp [h.reactor]

theorem Wake.move (h : Wake s) (w : Fin n) {a : PushPc α} (b : PushPc α)
    (hp : s.pusher w = a) (hu : a ≠ .unlock) (hn : a ≠ .notify) : Wake (s.setPusher w b) := by
  refine ⟨fun hlt => ?_, fun t k hr hlt => ?_⟩
  · exact (h.awake hlt).imp id (Or.imp (fun ha => ha.move w b hp hu hn) id)
  · exact (h.test t k hr hlt).imp id fun ha => ha.move w b hp hu hn

variable {t : State n α}

theorem Wake.step (hs : Step s t) (hd : Drain s) (h : Wake s) : Wake t := by
  cases hs with
  | pushCall w slot hp | pushFailed w hp | pushInterrupted w hp | pushResume w hp | pushShutdown w hp _
  | pushAccepted w hp _ | pushLoad w hp => exact h.move w _ hp (by simp) (by simp)
  | @pushTake w slot hp _ =>
    have hm := h.move w (.flag slot) hp (by simp) (by simp)
    exact ⟨hm.awake, hm.test⟩
  | @pushLock w slot hp _ =>
    have hm := h.move w (.load slot) hp (by simp) (by simp)
    exact ⟨hm.awake, hm.test⟩
  | @pushCopy w slot head hp =>
    have hm := h.move w (.store slot head) hp (by simp) (by simp)
    exact ⟨hm.awake, hm.test⟩
  | @pushStore w slot head hp =>
    have ha : Announcing { s.setPusher w .unlock with respHead := head + 1, stored := s.stored ++ [slot] } :=
      ⟨w, .inl (Function.update_self ..)⟩
    exact ⟨fun _ => .inr (.inl ha), fun _ _ _ _ => .inr ha⟩
  | @pushUnlock w hp =>
    have ha : Announcing { s.setPusher w .notify with respMutex := none } := ⟨w, .inr (Function.update_self ..)⟩
    exact ⟨fun _ => .inr (.inl ha), fun _ _ _ _ => .inr ha⟩
  | pushNotify w hp => exact ⟨fun _ => .inl (eventfdWrite_pos _), fun _ _ _ _ => .inl (eventfdWrite_pos _)⟩
  | ready hp =>
    have hawake := h.awake
    rw [hp] at hawake
    exact ⟨hawake, by simp⟩
  | readEventfd hp | popLoadTail hp | popNonempty hp _ | popCopy hp | popStore hp | popPost hp | dispatched hp =>
    exact ⟨fun _ => .inr (.inr trivial), by simp⟩
  | popLoadHead hp =>
    refine ⟨fun _ => .inr (.inr trivial), ?_⟩
    rintro t k ⟨⟩ hlt
    exact absurd hlt (Nat.lt_irrefl _)
  | @popEmpty tail head hp hle =>
    have ht := (hd.test tail head hp).1
    refine ⟨fun hlt => ?_, by simp⟩
    simp only at hlt
    rcases h.test tail head hp (by omega) with he | ha
    · exact .inl he
    · exact .inr (.inl ha)
  | signalFlag hp | signalPost hp | signalDone hp => exact ⟨h.awake, h.test⟩

structure Inv (s : State n α) : Prop where
  counters : Counters s
  contents : Contents s
  drain : Drain s
  wake : Wake s

theorem Inv.init (h : Init s) : Inv s := ⟨.init h, .init h, .init h, .init h⟩

theorem Inv.step (h : Inv s) (hs : Step s t) : Inv t :=
  ⟨h.counters.step hs h.contents h.drain, h.contents.step hs h.counters h.drain, h.drain.step hs h.contents,
    h.wake.step hs h.drain⟩

theorem Inv.unread_eq (h : Inv s) : unread s = s.stored.drop s.respTail := by
  have hlen := h.contents.length
  rw [unread, ← hlen]
  exact window_eq_drop (hlen ▸ h.drain.behind) fun i hi hlt => h.contents.ring i hi (hlen ▸ hlt)

theorem Inv.queueOf_eq (h : Inv s) : queueOf s = ⟨s.stored.drop s.respTail, s.stored, s.stored.take s.respTail⟩ := by
  rw [queueOf, h.unread_eq, h.drain.popped]

theorem queueOf_step (h : Inv s) (hs : Step s t) :
    queueOf t = queueOf s ∨ BoundedQueue.Step responseQueueSize (queueOf s) (queueOf t) := by
  rw [(h.step hs).queueOf_eq, h.queueOf_eq]
  cases hs with
  | pushCall w slot _ | pushFailed w _ | pushInterrupted w _ | pushResume w _ | pushTake w _ _
  | pushShutdown w _ _ | pushAccepted w _ _ | pushLock w _ _ | pushLoad w _ | pushCopy w _ | pushUnlock w _
  | pushNotify w _ | ready _ | readEventfd _ | popLoadTail _ | popLoadHead _ | popEmpty _ _ | popNonempty _ _
  | popCopy _ | popPost _ | dispatched _ | signalFlag _ | signalPost _ | signalDone _ => exact .inl rfl
  | @pushStore w slot head hp =>
    have hone := le_total admitted s.pusher w
    rw [hp, admitted] at hone
    have hroom := h.counters.room
    have hlen := h.contents.length
    have hle : s.respTail ≤ s.stored.length := hlen ▸ h.drain.behind
    right
    simp only [State.setPusher, drop_append_of_le_length hle, take_append_of_le_length hle]
    exact .enqueue slot (by simp only [length_drop]; omega)
  | @popStore tail slot hp =>
    obtain ⟨rfl, hx⟩ := h.drain.store tail slot hp
    obtain ⟨hlt, hget⟩ := List.getElem?_eq_some_iff.mp hx
    right
    simp only [take_add_one, hx, Option.toList_some]
    exact .dequeue (by rw [drop_eq_getElem_cons hlt, hget])

theorem Inv.refinesFifo (h : Inv s)
    (hq : Reach BoundedQueue.Init (BoundedQueue.Step responseQueueSize) (queueOf s)) : RefinesFifo s := by
  obtain ⟨horder, hbounded⟩ := BoundedQueue.reach_fifo hq
  refine ⟨hq, ⟨inFlight s.reactor ++ unread s, ?_⟩, ?_, h.wake.awake⟩
  · rw [← append_assoc]
    exact horder.symm
  · simpa [queueOf, unread, window] using hbounded

/-- Pushers and reactor together are a bounded first-in first-out queue, and no response waits without a wake-up. The
counters are those of the source, which have 64 bits, as long as fewer than `2 ^ 64` responses have been stored. -/
theorem pushResponse_popResponse_refines {s : State n α} (h : Reach Init Step s) :
    RefinesFifo s ∧ (s.stored.length < 2 ^ 64 → s.respHead < 2 ^ 64 ∧ s.respTail < 2 ^ 64) := by
  have hinv {u : State n α} (hu : Reach Init Step u) : Inv u :=
    hu.invariant (P := Inv) (fun _ => Inv.init) fun _ _ hi hs => hi.step hs
  refine ⟨(hinv h).refinesFifo (h.simulates queueOf ?_ fun u v hu hs => queueOf_step (hinv hu) hs), fun h64 => ?_⟩
  · intro u hu
    simp [BoundedQueue.Init, queueOf, unread, window, hu.respHead, hu.respTail, hu.stored, hu.popped, hu.reactor,
      inFlight]
  · rw [(hinv h).contents.length] at h64
    exact ⟨h64, (hinv h).drain.behind.trans_lt h64⟩

def okSlot : ResponseSlot := ⟨.send, "tcp_1", "ok", 2, 0, "", 0, 0, "", "", "", false, 0⟩

def empty : State 1 ResponseSlot where
  respHead := 0
  respTail := 0
  semFreeRespSlots := responseQueueSize
  respMutex := none
  shutdownFlag := false
  respRing _ := okSlot
  eventfd := 0
  reactor := .idle
  signal := .idle
  pusher _ := .idle
  stored := []
  popped := []

/-- One response goes through the ring and the reactor is about to dispatch it. -/
theorem pushResponse_popResponse_one :
    ∃ s : State 1 ResponseSlot, s.stored = [okSlot] ∧ s.reactor = .dispatch okSlot ∧ s.popped = [okSlot] ∧
      RefinesFifo s := by
  have h₀ : Reach Init Step empty := .start ⟨rfl, rfl, rfl, rfl, rfl, rfl, rfl, rfl, fun _ => rfl, rfl, rfl⟩
  have h₁ := h₀.next (.pushCall 0 okSlot rfl)
  have h₂ := h₁.next (.pushTake 0 rfl (by decide))
  have h₃ := h₂.next (.pushAccepted 0 rfl rfl)
  have h₄ := h₃.next (.pushLock 0 rfl rfl)
  have h₅ := h₄.next (.pushLoad 0 rfl)
  have h₆ := h₅.next (.pushCopy 0 rfl)
  have h₇ := h₆.next (.pushStore 0 rfl)
  have h₈ := h₇.next (.pushUnlock 0 rfl)
  have h₉ := h₈.next (.pushNotify 0 rfl)
  have r₁ := h₉.next (.ready rfl)
  have r₂ := r₁.next (.readEventfd rfl)
  have r₃ := r₂.next (.popLoadTail rfl)
  have r₄ := r₃.next (.popLoadHead rfl)
  have r₅ := r₄.next (.popNonempty rfl (by decide))
  have r₆ := r₅.next (.popCopy rfl)
  have r₇ := r₆.next (.popStore rfl)
  have r₈ := r₇.next (.popPost rfl)
  exact ⟨_, rfl, rfl, rfl, (pushResponse_popResponse_refines r₈).1⟩

end Logistics.ResponseRing
