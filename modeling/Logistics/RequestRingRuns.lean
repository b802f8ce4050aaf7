import Logistics.RequestRing

namespace Logistics.RequestRing

open Reachability ThreadCount RingLog Ipc List Function

variable {n : Nat} {α : Type}

abbrev Intact (s : State n α) (log : List α) (i : Nat) : Prop := Holds requestQueueSize s.reqRing log i

structure Contents (s : State n α) : Prop where
  copyHead : ∀ x h, s.reactor = .copy x h → h = s.reqHead
  storeHead : ∀ x h, s.reactor = .store x h → h = s.reqHead ∧ s.reqRing (h % requestQueueSize) = x
  ring : ∀ i, s.reqTail ≤ i → i < s.reqHead → Intact s (stored s) i
  copying : ∀ w i, s.worker w = .copy i → i < s.reqTail ∧ Intact s s.pushed i
  copied : ∀ w i x, s.worker w = .post i x → i < s.reqTail ∧ s.pushed[i]? = some x

variable {s : State n α}

theorem Contents.init (h : Init s) : Contents s := by
  constructor
  · simp [h.reactor]
  · simp [h.reactor]
  · intro i _ hi
    simp [h.reqHead] at hi
  · simp [h.worker]
  · simp [h.worker]

theorem Contents.move (h : Contents s) (w : Fin n) (b : WaitPc α)
    (hcopy : ∀ i, b = .copy i → i < s.reqTail ∧ Intact s s.pushed i)
    (hpost : ∀ i x, b = .post i x → i < s.reqTail ∧ s.pushed[i]? = some x) : Contents (s.setWorker w b) := by
  refine ⟨h.copyHead, h.storeHead, h.ring, fun v i hv => ?_, fun v i x hv => ?_⟩
  · by_cases he : v = w
    · subst v; exact hcopy i (by simpa [State.setWorker] using hv)
    · exact h.copying v i (by simpa [State.setWorker, he] using hv)
  · by_cases he : v = w
    · subst v; exact hpost i x (by simpa [State.setWorker] using hv)
    · exact h.copied v i x (by simpa [State.setWorker, he] using hv)

theorem claim_intact (hc : Counters s) (h : Contents s) (w : Fin n) {tail : Nat}
    (hp : s.worker w = .cas tail) : Intact s s.pushed s.reqTail := by
  have hone := le_total claiming s.worker w
  rw [hp, claiming] at hone
  have hlt : s.reqTail < s.pushed.length := by have := hc.claims; omega
  have hhead := hc.head
  rw [stored, length_append] at hhead
  have hring := h.ring s.reqTail le_rfl (by omega)
  unfold Intact Holds at hring ⊢
  rw [stored, getElem?_append_left hlt] at hring
  exact hring

theorem Contents.claim (h : Contents s) : Contents { s with reqTail := s.reqTail + 1 } := by
  refine ⟨h.copyHead, h.storeHead, fun i hi => h.ring i (Nat.le_of_succ_le hi), fun w i hw => ?_, fun w i x hw => ?_⟩
  · obtain ⟨hi, hold⟩ := h.copying w i hw
    exact ⟨Nat.lt_succ_of_lt hi, hold⟩
  · obtain ⟨hi, hx⟩ := h.copied w i x hw
    exact ⟨Nat.lt_succ_of_lt hi, hx⟩

theorem Contents.write (h : Contents s) (hc : Counters s) {slot : α} {head : Nat} (hp : s.reactor = .copy slot head)
    (hclean : ∀ w i, s.worker w = .copy i → ringIndex requestQueueSize i ≠ ringIndex requestQueueSize head) :
    Contents { s with reqRing := update s.reqRing (ringIndex requestQueueSize head) slot,
                      reactor := .store slot head } := by
  have hhead := h.copyHead _ _ hp
  have hfree := hc.free
  simp only [hp, reserved] at hfree
  refine ⟨by simp, ?_, ?_, ?_, h.copied⟩
  · rintro x y ⟨⟩
    exact ⟨hhead, by simp [requestIndex_eq]⟩
  · intro i hi hlt
    have hr := h.ring i hi hlt
    simp only [stored, hp, unposted] at hr ⊢
    rw [requestIndex_eq]
    exact hr.update (mod_ne_of_window (by rw [hhead]; exact hlt) (by simp only at hi; omega)) slot
  · intro w i hw
    obtain ⟨hi, hold⟩ := h.copying w i hw
    have hne := hclean w i hw
    rw [requestIndex_eq, requestIndex_eq] at hne
    rw [requestIndex_eq]
    exact ⟨hi, hold.update hne slot⟩

variable {t : State n α}

theorem Contents.step (hs : Step s t) (hg : CleanCopy s t) (hc : Counters s) (h : Contents s) : Contents t := by
  cases hs with
  | pushTryWait slot hp hf | pushRefused hp hf | pushAccepted hp hf | pushLoad hp =>
    have hr := h.ring
    simp only [stored, hp, unposted] at hr
    exact ⟨by simp, by simp, hr, h.copying, h.copied⟩
  | @pushCopy slot head hp => exact h.write hc hp (hg slot head hp rfl)
  | @pushStore slot head hp =>
    obtain ⟨hhead, hslot⟩ := h.storeHead _ _ hp
    have hlen := hc.head
    simp only [stored, hp, unposted, append_nil] at hlen
    refine ⟨by simp, by simp, ?_, h.copying, h.copied⟩
    intro i hi hlt
    simp only [stored, unposted] at hi hlt ⊢
    by_cases he : i < s.reqHead
    · have hr := h.ring i hi he
      simp only [stored, hp, unposted, append_nil] at hr
      exact hr.append slot
    · obtain rfl : i = s.pushed.length := by omega
      exact holds_last _ _ _ _ (by rw [← hlen, ← hhead]; exact hslot)
  | pushPost hp =>
    have hr := h.ring
    simp only [stored, hp, unposted] at hr
    refine ⟨by simp, by simp, by simpa [stored, unposted] using hr, fun w i hw => ?_, fun w i x hw => ?_⟩
    · exact ⟨(h.copying w i hw).1, (h.copying w i hw).2.append _⟩
    · obtain ⟨hi, hx⟩ := h.copied w i x hw
      exact ⟨hi, by rw [getElem?_append_left (List.getElem?_eq_some_iff.mp hx).1, hx]⟩
  | waitCall w hp | waitFailed w hp | waitInterrupted w hp | waitShutdown w hp _ | waitAccepted w hp _
  | waitLoad w hp | waitCasFailed w hp => exact h.move w _ (by simp) (by simp)
  | waitResume w hp => exact h.move w _ (by split <;> simp) (by split <;> simp)
  | waitTake w hp _ =>
    have hm := h.move w .flag (by simp) (by simp)
    exact ⟨hm.copyHead, hm.storeHead, hm.ring, hm.copying, hm.copied⟩
  | @waitCas w tail hp htail =>
    subst htail
    have hold := claim_intact hc h w hp
    refine h.claim.move w _ ?_ (by simp)
    rintro i ⟨⟩
    exact ⟨Nat.lt_succ_self _, hold⟩
  | @waitCopy w tail hp =>
    refine h.move w _ (by simp) ?_
    rintro i x ⟨⟩
    obtain ⟨hi, hold⟩ := h.copying w _ hp
    exact ⟨hi, by rw [requestIndex_eq]; exact hold⟩
  | waitPost w hp =>
    have hm := h.move w .idle (by simp) (by simp)
    exact ⟨hm.copyHead, hm.storeHead, hm.ring, hm.copying, hm.copied⟩
  | signalFlag hp | signalPost hp | signalDone hp => exact ⟨h.copyHead, h.storeHead, h.ring, h.copying, h.copied⟩

structure Bookkeeping (s : State n α) : Prop where
  delivered : ∀ p ∈ s.delivered, p.1 < s.reqTail ∧ s.pushed[p.1]? = some p.2
  nodup : (s.delivered.map Prod.fst).Nodup
  fresh : ∀ w i, claimed (s.worker w) = some i → i < s.reqTail ∧ i ∉ s.delivered.map Prod.fst
  apart : ∀ v w i, claimed (s.worker v) = some i → claimed (s.worker w) = some i → v = w

theorem Bookkeeping.init (h : Init s) : Bookkeeping s := by
  constructor
  · simp [h.delivered]
  · simp [h.delivered]
  · simp [h.worker, claimed]
  · simp [h.worker, claimed]

theorem Bookkeeping.move (h : Bookkeeping s) (w : Fin n) (b : WaitPc α)
    (hb : claimed b = claimed (s.worker w) ∨ claimed b = none) : Bookkeeping (s.setWorker w b) := by
  have hsame (v : Fin n) (i : Nat) (hv : claimed ((s.setWorker w b).worker v) = some i) :
      claimed (s.worker v) = some i := by
    by_cases he : v = w
    · subst v
      simp only [State.setWorker, update_self] at hv
      rcases hb with hb | hb
      · rwa [← hb]
      · simp [hb] at hv
    · simpa [State.setWorker, he] using hv
  exact ⟨h.delivered, h.nodup, fun v i hv => h.fresh v i (hsame v i hv),
    fun u v i hu hv => h.apart u v i (hsame u i hu) (hsame v i hv)⟩

theorem Bookkeeping.step (hs : Step s t) (hc : Contents s) (h : Bookkeeping s) : Bookkeeping t := by
  cases hs with
  | pushTryWait slot hp hf | pushRefused hp _ | pushAccepted hp _ | pushLoad hp | pushCopy hp | pushStore hp
  | signalFlag hp | signalPost hp | signalDone hp => exact ⟨h.delivered, h.nodup, h.fresh, h.apart⟩
  | pushPost hp =>
    refine ⟨fun p hp => ?_, h.nodup, h.fresh, h.apart⟩
    obtain ⟨hi, hx⟩ := h.delivered p hp
    exact ⟨hi, by rw [getElem?_append_left (List.getElem?_eq_some_iff.mp hx).1, hx]⟩
  | waitCall w hp | waitFailed w hp | waitInterrupted w hp | waitShutdown w hp _ | waitAccepted w hp _
  | waitLoad w hp | waitCasFailed w hp => exact h.move w _ (.inr rfl)
  | waitResume w hp => exact h.move w _ (.inr (by split <;> rfl))
  | waitTake w hp _ =>
    have hm := h.move w .flag (.inr rfl)
    exact ⟨hm.delivered, hm.nodup, hm.fresh, hm.apart⟩
  | @waitCas w tail hp htail =>
    subst htail
    have hnew (v : Fin n) (i : Nat) (hv : claimed ((s.setWorker w (.copy s.reqTail)).worker v) = some i) :
        (v = w ∧ i = s.reqTail) ∨ claimed (s.worker v) = some i := by
      by_cases he : v = w
      · subst v
        exact .inl ⟨rfl, by simpa [State.setWorker, claimed, eq_comm] using hv⟩
      · exact .inr (by simpa [State.setWorker, he] using hv)
    refine ⟨fun p hp => ?_, h.nodup, fun v i hv => ?_, fun u v i hu hv => ?_⟩
    · exact ⟨Nat.lt_succ_of_lt (h.delivered p hp).1, (h.delivered p hp).2⟩
    · rcases hnew v i hv with ⟨_, rfl⟩ | hv
      · refine ⟨Nat.lt_succ_self _, fun hmem => ?_⟩
        obtain ⟨p, hp, he⟩ := mem_map.mp hmem
        have := (h.delivered p hp).1
        omega
      · exact ⟨Nat.lt_succ_of_lt (h.fresh v i hv).1, (h.fresh v i hv).2⟩
    · rcases hnew u i hu with ⟨hu', rfl⟩ | hu' <;> rcases hnew v _ hv with ⟨hv', hi⟩ | hv'
      · rw [hu', hv']
      · have := (h.fresh v _ hv').1; omega
      · have := (h.fresh u _ hu').1; omega
      · exact h.apart u v i hu' hv'
  | @waitCopy w tail hp => exact h.move w _ (.inl (by rw [hp]; rfl))
  | @waitPost w tail slot hp =>
    have hm := h.move w .idle (.inr rfl)
    have hw : claimed (s.worker w) = some tail := by rw [hp]; rfl
    obtain ⟨hlt, hnot⟩ := h.fresh w tail hw
    refine ⟨?_, ?_, fun v i hv => ?_, hm.apart⟩
    · intro p hmem
      rcases mem_append.mp hmem with hmem | hmem
      · exact h.delivered p hmem
      · obtain rfl := mem_singleton.mp hmem
        exact hc.copied w tail slot hp
    · rw [map_append, nodup_append]
      refine ⟨h.nodup, by simp, ?_⟩
      rintro a ha b hb rfl
      simp only [map_cons, map_nil, mem_singleton] at hb
      exact hnot (hb ▸ ha)
    · obtain ⟨hi, hmem⟩ := hm.fresh v i hv
      refine ⟨hi, fun hmem' => ?_⟩
      rw [map_append, mem_append] at hmem'
      rcases hmem' with hmem' | hmem'
      · exact hmem hmem'
      · simp only [map_cons, map_nil, mem_singleton] at hmem'
        subst hmem'
        by_cases he : v = w
        · subst v; simp [State.setWorker, claimed] at hv
        · exact he (h.apart v w i (by simpa [State.setWorker, he] using hv) hw)

structure Inv (s : State n α) : Prop where
  counters : Counters s
  contents : Contents s
  bookkeeping : Bookkeeping s

theorem Inv.step (h : Inv s) (hs : Guarded CleanCopy Step s t) : Inv t :=
  ⟨h.counters.step hs.1 (fun x y hp => (h.contents.storeHead x y hp).1),
    h.contents.step hs.1 hs.2 h.counters, h.bookkeeping.step hs.1 h.contents⟩

theorem Inv.exactlyOnce (h : Inv s) : ExactlyOnce s := by
  obtain ⟨hc, ht, hb⟩ := h
  refine ⟨fun p hp => (hb.delivered p hp).2, hb.nodup, fun w i hw => ?_, fun hq => ?_⟩
  · rw [requestIndex_eq]
    exact (ht.copying w i hw).2
  · have hstored : stored s = s.pushed := by simp [stored, hq.reactor, unposted]
    have hhead := hc.head
    have hring := ht.ring
    rw [hstored] at hhead hring
    have hzero : total holding s.worker = 0 := by
      apply total_eq_zero
      intro w
      rcases hq.worker w with hw | hw <;> rw [hw] <;> rfl
    have htail : s.reqTail ≤ s.pushed.length := by have := hc.claims; omega
    have hcount := hc.count
    have htake := perm_take htail hb.delivered hb.nodup (by omega)
    have hdrop : undelivered s = s.pushed.drop s.reqTail := by
      rw [undelivered, hhead]
      exact window_eq_drop htail fun i hi hlt => hring i hi (by omega)
    rw [hdrop]
    exact (htake.append_right _).trans (by rw [take_append_drop])

/-- Requests are delivered exactly once in every run in which no push copies over a slot that a
worker still has to copy out. -/
theorem pushRequest_waitRequest_exactlyOnce {s : State n α} (h : Reach Init (Guarded CleanCopy Step) s) :
    ExactlyOnce s :=
  (h.invariant (P := Inv) (fun _ h₀ => ⟨.init h₀, .init h₀, .init h₀⟩) fun _ _ hi hs => hi.step hs).exactlyOnce

def afterPush (s : State n α) (slot : α) : State n α :=
  { s with reqHead := s.reqHead + 1, semRequests := s.semRequests + 1, semFreeReqSlots := s.semFreeReqSlots - 1,
           reqRing := update s.reqRing (ringIndex requestQueueSize s.reqHead) slot,
           reactor := .idle, pushed := s.pushed ++ [slot] }

def afterClaim (s : State n α) (w : Fin n) : State n α :=
  { s.setWorker w (.copy s.reqTail) with reqTail := s.reqTail + 1, semRequests := s.semRequests - 1 }

def afterDeliver (s : State n α) (w : Fin n) (tail : Nat) : State n α :=
  { s.setWorker w .idle with
      semFreeReqSlots := s.semFreeReqSlots + 1,
      delivered := s.delivered ++ [(tail, s.reqRing (ringIndex requestQueueSize tail))] }

section Runs

variable {G : State n α → State n α → Prop} {s : State n α}

theorem reach_push (h : Reach Init (Guarded G Step) s)
    (hG : ∀ u v, u.worker = s.worker → (∀ slot head, u.reactor = .copy slot head → head = s.reqHead) → G u v) (slot : α)
    (hp : s.reactor = .idle) (hfree : 0 < s.semFreeReqSlots) (hflag : s.shutdownFlag = false) :
    Reach Init (Guarded G Step) (afterPush s slot) := by
  have h₁ := h.next ⟨.pushTryWait slot hp hfree, hG _ _ rfl fun _ _ h => by cases hp.symm.trans h⟩
  have h₂ := h₁.next ⟨.pushAccepted rfl hflag, hG _ _ rfl (by rintro _ _ ⟨⟩)⟩
  have h₃ := h₂.next ⟨.pushLoad rfl, hG _ _ rfl (by rintro _ _ ⟨⟩)⟩
  have h₄ := h₃.next ⟨.pushCopy rfl, hG _ _ rfl (by rintro _ _ ⟨⟩; rfl)⟩
  have h₅ := h₄.next ⟨.pushStore rfl, hG _ _ rfl (by rintro _ _ ⟨⟩)⟩
  exact h₅.next ⟨.pushPost rfl, hG _ _ rfl (by rintro _ _ ⟨⟩)⟩

theorem reach_claim (h : Reach Init (Guarded G Step) s) (hG : ∀ u v, u.reactor = s.reactor → G u v) (w : Fin n)
    (hp : s.worker w = .idle) (hsem : 0 < s.semRequests) (hflag : s.shutdownFlag = false) :
    Reach Init (Guarded G Step) (afterClaim s w) := by
  have h₁ := h.next ⟨.waitCall w hp, hG _ _ rfl⟩
  have h₂ := h₁.next ⟨.waitTake w (by simp [State.setWorker]) hsem, hG _ _ rfl⟩
  have h₃ := h₂.next ⟨.waitAccepted w (by simp [State.setWorker]) hflag, hG _ _ rfl⟩
  have h₄ := h₃.next ⟨.waitLoad w (by simp [State.setWorker]), hG _ _ rfl⟩
  have h₅ := h₄.next ⟨.waitCas w (update_self ..) rfl, hG _ _ rfl⟩
  simpa [State.setWorker, afterClaim] using h₅

theorem reach_deliver (h : Reach Init (Guarded G Step) s) (hG : ∀ u v, u.reactor = s.reactor → G u v) (w : Fin n)
    {tail : Nat} (hp : s.worker w = .copy tail) : Reach Init (Guarded G Step) (afterDeliver s w tail) := by
  have h₁ := h.next ⟨.waitCopy w hp, hG _ _ rfl⟩
  have h₂ := h₁.next ⟨.waitPost w (update_self ..), hG _ _ rfl⟩
  simpa [State.setWorker, afterDeliver] using h₂

end Runs

def request (k : Nat) : RequestSlot := ⟨"tcp_1", .tcp, "", k, true, false, false, "HUB", "hub_1"⟩

def filled (n k : Nat) : State n RequestSlot where
  reqHead := k
  reqTail := 0
  semRequests := k
  semFreeReqSlots := requestQueueSize - k
  shutdownFlag := false
  reqRing i := if i < k then request i else request 0
  reactor := .idle
  signal := .idle
  worker _ := .idle
  pushed := (range k).map request
  delivered := []

theorem afterPush_filled (n k : Nat) (hk : k < requestQueueSize) :
    afterPush (filled n k) (request k) = filled n (k + 1) := by
  have hring : update (filled n k).reqRing (ringIndex requestQueueSize k) (request k) =
      (filled n (k + 1)).reqRing := by
    funext i
    rw [requestIndex_eq, Nat.mod_eq_of_lt hk]
    by_cases hi : i = k
    · subst i; simp [filled]
    · have hlt : i < k + 1 ↔ i < k := by omega
      rw [update_of_ne hi]
      simp only [filled, hlt]
  simp only [afterPush, show (filled n k).reqHead = k from rfl, hring]
  simp [filled, range_succ, Nat.sub_sub]

theorem reach_filled {G : State n RequestSlot → State n RequestSlot → Prop}
    (hG : ∀ u v, u.worker = (fun _ => .idle) → G u v) (k : Nat) (hk : k ≤ requestQueueSize) :
    Reach Init (Guarded G Step) (filled n k) := by
  induction k with
  | zero => exact .start ⟨rfl, rfl, rfl, rfl, rfl, rfl, rfl, fun _ => rfl, rfl, rfl⟩
  | succ k ih =>
    rw [← afterPush_filled n k hk]
    exact reach_push (ih (by omega)) (fun u v hu _ => hG u v hu) _ rfl (by simp only [filled]; omega) rfl

def pushedBeside : State 2 RequestSlot := afterPush (afterClaim (filled 2 2) 0) (request 2)

/-- A request is pushed while a worker holds the first one, and a second worker overtakes it. -/
theorem pushRequest_waitRequest_overtaken :
    ExactlyOnce (afterDeliver (afterDeliver (afterClaim pushedBeside 1) 1 1) 0 0) := by
  have hidle {s : State 2 RequestSlot} (hs : s.reactor = .idle) (u v : State 2 RequestSlot)
      (hu : u.reactor = s.reactor) : CleanCopy u v := by
    intro slot head hcopy
    cases (hu.trans hs).symm.trans hcopy
  have h₀ : Reach Init (Guarded CleanCopy Step) (filled 2 2) := by
    refine reach_filled (fun u v hu _ _ _ _ w i hw => ?_) 2 (by decide)
    rw [hu] at hw
    cases hw
  have h₁ := reach_claim h₀ (hidle rfl) 0 rfl (by decide) rfl
  have h₂ : Reach Init (Guarded CleanCopy Step) pushedBeside := by
    refine reach_push h₁ (fun u v hu hhead slot head hcopy _ w i hw => ?_) (request 2) rfl (by decide) rfl
    rw [hhead slot head hcopy]
    rw [hu] at hw
    revert w
    refine Fin.forall_fin_two.mpr ⟨?_, ?_⟩
    · rintro ⟨⟩
      decide
    · rintro ⟨⟩
  have h₃ := reach_claim h₂ (hidle rfl) 1 rfl (by decide) rfl
  have h₄ := reach_deliver h₃ (hidle rfl) 1 (show State.worker _ 1 = .copy 1 from rfl)
  exact pushRequest_waitRequest_exactlyOnce
    (reach_deliver h₄ (hidle rfl) 0 (show State.worker _ 0 = .copy 0 from rfl))

/-- The reactor fills the ring, worker 0 claims index 0 and is delayed, worker 1
takes and releases index 1, and the freed token lets the reactor write index 8192
over the slot that worker 0 has not copied out. -/
def overwritten : State 2 RequestSlot :=
  afterDeliver (afterPush (afterDeliver (afterClaim (afterClaim (filled 2 requestQueueSize) 0) 1) 1 1)
    (request requestQueueSize)) 0 0

theorem reach_overwritten : Reach Init Step overwritten := by
  have h₀ : Reach Init (Guarded (fun _ _ => True) Step) (filled 2 requestQueueSize) :=
    reach_filled (fun _ _ _ => trivial) requestQueueSize le_rfl
  have h₁ := reach_claim h₀ (fun _ _ _ => trivial) 0 rfl (by decide) rfl
  have h₂ := reach_claim h₁ (fun _ _ _ => trivial) 1 rfl (by decide) rfl
  have h₃ := reach_deliver h₂ (fun _ _ _ => trivial) 1 (show State.worker _ 1 = .copy 1 from rfl)
  have h₄ := reach_push h₃ (fun _ _ _ _ => trivial) (request requestQueueSize) rfl (by decide) rfl
  have h₅ := reach_deliver h₄ (fun _ _ _ => trivial) 0 (show State.worker _ 0 = .copy 0 from rfl)
  exact h₅.mono fun _ _ h => h.1

theorem overwritten_quiescent : Quiescent overwritten := ⟨rfl, Fin.forall_fin_two.mpr ⟨.inl rfl, .inl rfl⟩⟩

theorem overwritten_pushed :
    overwritten.pushed = (range requestQueueSize).map request ++ [request requestQueueSize] := by
  simp only [overwritten, afterDeliver, afterPush, afterClaim, State.setWorker, filled]

theorem overwritten_ring (i : Nat) (hi : i < requestQueueSize) :
    overwritten.reqRing i = request (if i = 0 then requestQueueSize else i) := by
  have hring : overwritten.reqRing = update (filled 2 requestQueueSize).reqRing
      (ringIndex requestQueueSize requestQueueSize) (request requestQueueSize) := rfl
  rw [hring, requestIndex_eq]
  by_cases h : i = 0
  · simp [h]
  · simp [h, filled, hi]

theorem overwritten_delivered : overwritten.delivered = [(1, request 1), (0, request requestQueueSize)] := by
  have hfirst : (filled 2 requestQueueSize).reqRing (ringIndex requestQueueSize 1) = request 1 := by
    rw [requestIndex_eq]
    simp [filled, requestQueueSize]
  have hsecond : overwritten.reqRing (ringIndex requestQueueSize 0) = request requestQueueSize := by
    rfl
  exact congrArg₂ (fun x y => [(1, x), (0, y)]) hfirst hsecond

theorem pushRequest_waitRequest_overwrites :
    ∃ s : State 2 RequestSlot, Reach Init Step s ∧ s.shutdownFlag = false ∧ ¬ ExactlyOnce s := by
  refine ⟨overwritten, reach_overwritten, rfl, fun h => ?_⟩
  have hpushed : request 0 ∈ overwritten.pushed := by
    rw [overwritten_pushed]
    exact mem_append_left _ (mem_map.mpr ⟨0, mem_range.mpr (by decide), rfl⟩)
  have hmem := (h.settled overwritten_quiescent).mem_iff.mpr hpushed
  rcases mem_append.mp hmem with hmem | hmem
  · obtain ⟨p, hp, he⟩ := mem_map.mp hmem
    rw [overwritten_delivered] at hp
    simp only [mem_cons, not_mem_nil, or_false] at hp
    rcases hp with rfl | rfl <;> simp [request, requestQueueSize] at he
  · obtain ⟨i, hi, he⟩ := mem_map.mp hmem
    rw [overwritten_ring _ (Nat.mod_lt _ (by decide))] at he
    have hlen := congrArg RequestSlot.payloadLen he
    simp only [request] at hlen
    by_cases hz : i % requestQueueSize = 0
    · rw [if_pos hz] at hlen
      simp [requestQueueSize] at hlen
    · rw [if_neg hz] at hlen
      exact hz hlen

end Logistics.RequestRing
