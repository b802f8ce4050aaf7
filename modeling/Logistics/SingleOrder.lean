import Logistics.Gateway
import Mathlib.Data.Fintype.Prod

namespace Logistics.Gateway

open Database ApiGateway Shipments Reachability Scenario List

variable {ι θ : Type} {sys sys' : System ι θ} {s : String}

def System.spent (s : String) (sys : System ι θ) : Nat :=
  sys.flight.countP (fun call => call.request.shipmentId = s) +
    sys.orders.countP fun order => order.1.request.shipmentId = s

structure OneToken (s : String) (sys : System ι θ) : Prop where
  unique : ∀ p q, (sys.task p).sending = some s → (sys.task q).sending = some s → p = q
  sending : ∀ p, (sys.task p).sending = some s → sys.spent s = 0
  spent : sys.spent s ≤ 1

theorem OneToken.of_le (h : OneToken s sys)
    (htask : ∀ p, (sys'.task p).sending = some s → (sys.task p).sending = some s)
    (hspent : sys'.spent s ≤ sys.spent s) : OneToken s sys' where
  unique p q hp hq := h.unique p q (htask p hp) (htask q hq)
  sending p hp := Nat.le_zero.mp ((h.sending p (htask p hp)).symm ▸ hspent)
  spent := hspent.trans h.spent

theorem oneToken_start : OneToken s (System.start : System ι θ) := ⟨by rintro p q ⟨⟩, by rintro p ⟨⟩, Nat.zero_le 1⟩

theorem spent_reply {n : Nat} {call : Call} {reply : Reply} (hcall : sys.flight[n]? = some call) :
    (sys.reply n call reply).spent s ≤ sys.spent s := by
  obtain ⟨hn, hget⟩ := List.getElem?_eq_some_iff.mp hcall
  have hcreated : (created call reply).countP (fun order => decide (order.1.request.shipmentId = s)) ≤
      if call.request.shipmentId = s then 1 else 0 := by
    cases reply with
    | order hubId id =>
      rw [created, countP_singleton]
      exact (if_congr decide_eq_true_iff rfl rfl).le
    | error message | pong | status text => exact Nat.zero_le _
  have hflight : sys.flight.countP (fun call => decide (call.request.shipmentId = s)) =
      (sys.flight.eraseIdx n).countP (fun call => decide (call.request.shipmentId = s)) +
        if call.request.shipmentId = s then 1 else 0 := by
    rw [eraseIdx_eq_take_drop_succ, countP_append]
    conv_lhs => rw [← take_append_drop n sys.flight, drop_eq_getElem_cons hn, hget]
    rw [countP_append, countP_cons, Nat.add_assoc]
    simp only [decide_eq_true_eq]
  have hspent : (sys.reply n call reply).spent s =
      (sys.flight.eraseIdx n).countP (fun call => decide (call.request.shipmentId = s)) +
        (sys.orders ++ created call reply).countP fun order => decide (order.1.request.shipmentId = s) := rfl
  rw [hspent, System.spent, countP_append]
  omega

variable [DecidableEq ι] [DecidableEq θ] {e : Event ι θ}

/-- A worker takes a shipment up only when no other worker is about to send a command
for it, none is on its way to the core and there is no order of it. -/
def Undisturbed (s : String) (sys : System ι θ) (e : Event ι θ) : Prop :=
  ∀ p, (sys.task p).sending ≠ some s → ((step sys e).task p).sending = some s →
    (∀ q, (sys.task q).sending ≠ some s) ∧ sys.spent s = 0

instance [Fintype ι] [Fintype θ] (s : String) (sys : System ι θ) (e : Event ι θ) : Decidable (Undisturbed s sys e) :=
  inferInstanceAs (Decidable (∀ _, _))

variable {task : Task}

theorem OneToken.setTask (h : OneToken s sys) (p : ι × θ) (htask : task.sending = none) :
    OneToken s (sys.setTask p task) := by
  refine h.of_le (fun q hq => ?_) le_rfl
  rw [task_setTask] at hq
  split at hq
  · cases htask.symm.trans hq
  · exact hq

theorem OneToken.take (h : OneToken s sys) {p : ι × θ}
    (hfree : task.sending = some s → (∀ q, (sys.task q).sending ≠ some s) ∧ sys.spent s = 0) :
    OneToken s (sys.setTask p task) := by
  have hcases : ∀ q, ((sys.setTask p task).task q).sending = some s →
      q = p ∧ task.sending = some s ∨ (sys.task q).sending = some s := by
    intro q hq
    rw [task_setTask] at hq
    split at hq
    · next heq => exact .inl ⟨heq, hq⟩
    · exact .inr hq
  refine ⟨fun q q' hq hq' => ?_, fun q hq => ?_, h.spent⟩
  · rcases hcases q hq with ⟨rfl, htask⟩ | hold
    · rcases hcases q' hq' with ⟨rfl, -⟩ | hold'
      · rfl
      · exact absurd hold' ((hfree htask).1 q')
    · rcases hcases q' hq' with ⟨rfl, htask⟩ | hold'
      · exact absurd hold ((hfree htask).1 q)
      · exact h.unique q q' hold hold'
  · rcases hcases q hq with ⟨-, htask⟩ | hold
    · exact (hfree htask).2
    · exact h.sending q hold

theorem OneToken.send (h : OneToken s sys) {p : ι × θ} {call : Call}
    (hsending : (sys.task p).sending = some call.request.shipmentId) (htask : task.sending = none) :
    OneToken s ((sys.transmit call).setTask p task) := by
  have hspent : (sys.transmit call).spent s = sys.spent s + if call.request.shipmentId = s then 1 else 0 := by
    rw [System.spent, System.transmit, countP_append, countP_singleton, Nat.add_right_comm]
    exact congrArg _ (if_congr decide_eq_true_iff rfl rfl)
  by_cases hs : call.request.shipmentId = s
  · rw [hs] at hsending
    rw [if_pos hs, h.sending p hsending] at hspent
    have hnone : ∀ q, (((sys.transmit call).setTask p task).task q).sending ≠ some s := by
      intro q hq
      rw [task_setTask] at hq
      split at hq
      · cases htask.symm.trans hq
      · next hne => exact hne (h.unique q p hq hsending)
    exact ⟨fun q _ hq => absurd hq (hnone q), fun q hq => absurd hq (hnone q), hspent.le⟩
  · rw [if_neg hs] at hspent
    have hsame : OneToken s (sys.transmit call) := h.of_le (fun _ hq => hq) hspent.le
    exact hsame.setTask p htask

theorem Turn.oneToken (h : Turn sys e sys') (hs : OneToken s sys)
    (hfree : ∀ p, (sys.task p).sending ≠ some s → (sys'.task p).sending = some s →
      (∀ q, (sys.task q).sending ≠ some s) ∧ sys.spent s = 0) : OneToken s sys' := by
  cases h with
  | stay => exact hs
  | cancel | notice => exact hs.of_le (fun _ hq => hq) le_rfl
  | create | dispatch | announce | unpublished | enqueue | confirm | drop | discard | answer | record =>
    refine OneToken.setTask ?_ _ rfl
    exact hs.of_le (fun _ hq => hq) le_rfl
  | receive =>
    rw [settle_eq]
    exact hs.of_le (fun _ hq => hq) le_rfl
  | @take p n acked command record hidle =>
    rw [settleShared_eq] at hfree ⊢
    have hsame : OneToken s { sys with shared := (sys.settleShared n acked).shared } :=
      hs.of_le (fun _ hq => hq) le_rfl
    refine hsame.take fun htask => hfree p ?_ ?_
    · rw [hidle]
      rintro ⟨⟩
    · rw [task_setTask, if_pos rfl]
      exact htask
  | skip =>
    rw [settleShared_eq]
    exact hs.of_le (fun _ hq => hq) le_rfl
  | send htask => exact hs.send (by rw [htask]; rfl) rfl
  | execute hcall => exact hs.of_le (fun _ hq => hq) (spent_reply hcall)

/-- If a dispatch of a shipment never begins while another one is under way, or after
an order that the replica has not recorded, there is at most one order. -/
theorem single_order (s : String) (events : List (Event ι θ)) (h : Along step (Undisturbed s) System.start events) :
    (events.foldl step System.start).orders.countP (fun order => order.1.request.shipmentId = s) ≤ 1 := by
  have hone : OneToken s (events.foldl step System.start) :=
    h.invariant (fun sys e hs hfree => (turn_step sys e).oneToken hs hfree) oneToken_start
  exact (Nat.le_add_left ..).trans hone.spent

def freshId : Uuid := ⟨"5c1f", by decide⟩

def food : ShipmentRequest := ⟨"s1", "", [⟨1, "food", 5⟩]⟩

def askedTwice : List (Event Bool Bool) :=
  [.create (false, false) "ann" (some food) freshId "2026-01-01", .publish (false, false) true,
    .receive false 0 true freshId "2026-01-02", .receive true 0 true freshId "2026-01-02",
    .dispatch (false, false) "ann" (some "s1"),
    .publish (false, false) true, .dispatch (false, false) "ann" (some "s1"), .publish (false, false) true]

def oneAfterTheOther : List (Event Bool Bool) :=
  askedTwice ++ [.take (false, false) 0 true, .send (false, false),
    .execute 0 plainOracle.attempt true "2026-01-03" emptyDb,
    .answer (false, false) 0, .record (false, false), .publish (false, false) true,
    .receive true 0 true freshId "2026-01-04",
    .take (true, false) 0 true]

theorem one_after_the_other : (oneAfterTheOther.foldl step System.start).orders.countP
    (fun order => order.1.request.shipmentId = "s1") ≤ 1 :=
  single_order "s1" oneAfterTheOther (by decide +kernel)

def firstOrder : Db :=
  (cmdCreateShipment plainOracle.attempt true "2026-01-03" (some (commandItems food.items)) emptyDb).2.2

def atTheSameTime : List (Event Bool Bool) :=
  askedTwice ++ [.take (false, false) 0 true, .take (true, false) 0 true, .send (false, false), .send (true, false),
    .execute 0 plainOracle.attempt true "2026-01-03" emptyDb,
    .execute 0 plainOracle.attempt true "2026-01-03" firstOrder]

def answerLost : List (Event Bool Bool) :=
  askedTwice ++ [.take (false, false) 0 true, .send (false, false),
    .execute 0 plainOracle.attempt true "2026-01-03" emptyDb,
    .fail (false, false), .take (false, false) 0 true, .send (false, false),
    .execute 0 plainOracle.attempt true "2026-01-03" firstOrder]

theorem two_orders :
    (atTheSameTime.foldl step System.start).orders.map (fun order => (order.1.request.shipmentId, order.2)) =
      [("s1", 1), ("s1", 2)] ∧
    (answerLost.foldl step System.start).orders.map (fun order => (order.1.request.shipmentId, order.2)) =
      [("s1", 1), ("s1", 2)] := by
  decide +kernel

end Logistics.Gateway
