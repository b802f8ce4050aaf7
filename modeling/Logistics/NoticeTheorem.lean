import Logistics.DispatchNotices
import Logistics.ReplicaActions
import Logistics.SingleOrder

namespace Logistics.Shipments.Dispatcher

open TrimSpace List

variable {d : Dispatcher} {s t : String} {action : Action} {recorded : Bool}

def Phase (s t : String) (recorded : Bool) (d : Dispatcher) : Prop := if recorded then Recorded s t d else Awaits s t d

theorem Phase.act (h : Phase s t recorded d) (ht : trimSpace t ≠ "")
    (haction : action.records s t ∨ action.Apart s t recorded) :
    Phase s t (recorded || action.records s t) (d.act action) := by
  rcases haction with hrecords | hapart
  · rw [hrecords, Bool.or_true]
    cases recorded with
    | false => exact (Awaits.recorded h hrecords).1
    | true => exact (Recorded.again h ht hrecords).1
  · rw [Bool.eq_false_iff.mpr (not_records_of_apart hapart), Bool.or_false]
    cases recorded with
    | false => exact Awaits.act h ht hapart
    | true => exact Recorded.act h ht hapart

theorem Phase.dispatched_iff {noticed : Bool} (h : Phase s t recorded d) (ht : trimSpace t ≠ "")
    (haction : action.records s t ∨ action.Apart s t recorded)
    (hstatus : noticed → recorded → d.statusOf s = some .dispatched) :
    ((noticed || action.notices t) → (recorded || action.records s t) → (d.act action).statusOf s = some .dispatched) ↔
    (action.records s t → noticed → action = .confirm s t ∧ recorded) := by
  rcases haction with hrecords | hapart
  · rw [not_notices_of_records hrecords, hrecords, Bool.or_false, Bool.or_true]
    cases recorded with
    | false =>
      have hconfirmed := (Awaits.recorded h hrecords).2
      refine ⟨fun hall _ hnoticed => ?_, fun hnone hnoticed => absurd (hnone rfl hnoticed).2 Bool.false_ne_true⟩
      cases hconfirmed.symm.trans (hall hnoticed rfl)
    | true =>
      rcases (Recorded.again h ht hrecords).2 with ⟨rfl, hsame⟩ | ⟨hne, hconfirmed⟩
      · rw [hsame]
        exact iff_of_true hstatus fun _ _ => ⟨rfl, rfl⟩
      · refine ⟨fun hall _ hnoticed => ?_, fun hnone hnoticed => absurd (hnone rfl hnoticed).1 hne⟩
        cases hconfirmed.symm.trans (hall hnoticed rfl)
  · have hrecords : ¬ action.records s t := not_records_of_apart hapart
    refine iff_of_true (fun hnoticed hrecorded => ?_) fun h => absurd h hrecords
    rw [Bool.eq_false_iff.mpr hrecords, Bool.or_false] at hrecorded
    subst hrecorded
    rcases (Bool.or_eq_true _ _).mp hnoticed with hbefore | hnow
    · exact statusOf_act_of_apart hapart (hstatus hbefore rfl)
    · exact Recorded.dispatched h ht hnow

/-- Once a notice and a recording have both been seen the shipment is dispatched, at
all times, exactly if the first recording comes before the first notice and no local
completion comes after it. -/
theorem statusOf_foldl_iff {actions : List Action} (h : Awaits s t d) (ht : trimSpace t ≠ "")
    (hactions : ∀ before action, before ++ [action] <+: actions →
      action.records s t ∨ action.Apart s t (before.any (Action.records s t))) :
    (∀ before, before <+: actions → before.any (Action.notices t) → before.any (Action.records s t) →
        (before.foldl act d).statusOf s = some .dispatched) ↔
      ∀ before action, before ++ [action] <+: actions → action.records s t → before.any (Action.notices t) →
        action = .confirm s t ∧ before.any (Action.records s t) := by
  refine Reachability.history_iff (I := fun before => Phase s t (before.any (Action.records s t)) (before.foldl act d))
    h ?_ (by rintro ⟨⟩) ?_ hactions
  · intro before action haction hphase
    rw [any_append, foldl_append, any_cons, any_nil, Bool.or_false]
    exact hphase.act ht haction
  · intro before action haction hphase hstatus
    rw [any_append, any_append, foldl_append, any_cons, any_nil, Bool.or_false, any_cons,
      any_nil, Bool.or_false]
    exact hphase.dispatched_iff ht haction hstatus

end Logistics.Shipments.Dispatcher

namespace Logistics.Gateway

open Shipments TrimSpace Reachability Scenario

variable {ι θ : Type} [DecidableEq ι] [DecidableEq θ]

/-- A replica that does nothing else to the shipment and to the transaction has the
shipment dispatched once it has processed both exactly if it has recorded the
transaction before the first notice, and does not complete the dispatch after it. -/
theorem dispatched_after_both_iff (r : ι) (s : String) (id : Nat) (sys : System ι θ) (events : List (Event ι θ))
    (h : Dispatcher.Awaits s (toString id) (sys.replica r))
    (hactions : ∀ before action, before ++ [action] <+: actionsAt r sys events →
      action.records s (toString id) ∨ action.Apart s (toString id) (before.any (Action.records s (toString id)))) :
    (∀ before, before <+: events → (actionsAt r sys before).any (Action.notices (toString id)) →
        (actionsAt r sys before).any (Action.records s (toString id)) →
        ((before.foldl step sys).replica r).statusOf s = some .dispatched) ↔
      ∀ before action, before ++ [action] <+: actionsAt r sys events → action.records s (toString id) →
        before.any (Action.notices (toString id)) →
        action = .confirm s (toString id) ∧ before.any (Action.records s (toString id)) := by
  have ht : trimSpace (toString id) ≠ "" := by
    rw [trimSpace_toString]
    exact toString_ne_empty id
  rw [← Dispatcher.statusOf_foldl_iff h ht hactions]
  constructor
  · intro hall actions hpre
    obtain ⟨before, hbefore, rfl⟩ := isPrefix_actionsAt.mp hpre
    rw [← replica_foldl]
    exact hall before hbefore
  · intro hall before hbefore
    rw [replica_foldl]
    exact hall _ (isPrefix_actionsAt.mpr ⟨before, hbefore, rfl⟩)

def orderCreated : List (Event Bool Bool) :=
  askedTwice ++ [.take (false, false) 0 true, .send (false, false),
    .execute 0 plainOracle.attempt true "2026-01-03" emptyDb,
    .answer (false, false) 0]

def noticeLast : List (Event Bool Bool) :=
  [.record (false, false), .publish (false, false) true, .notice false "1", .receive false 0 true freshId "2026-01-05",
    .notice false " 1"]

theorem awaits_orderCreated : Dispatcher.Awaits "s1" "1" ((orderCreated.foldl step System.start).replica false) where
  tracked := ⟨⟨⟨"s1", "ann", [⟨1, "food", 5⟩]⟩, "", .pendingConfirmation, "2026-01-01"⟩, by decide +kernel, by decide⟩
  fresh s record hrecord := by
    have hrows : ∀ record ∈ ((orderCreated.foldl step (System.start : System Bool Bool)).replica false).shipments.rows,
        record.transactionId ≠ "1" := by decide +kernel
    exact hrows record (KeyedTable.Table.find?_eq_some.mp hrecord).1

theorem notice_after_recording :
    ((noticeLast.foldl step (orderCreated.foldl step System.start)).replica false).statusOf "s1" = some .dispatched :=
  (dispatched_after_both_iff false "s1" 1 (orderCreated.foldl step System.start) noticeLast awaits_orderCreated
    (concat_iff.mpr (by decide +kernel))).mpr (concat_iff.mpr (by decide +kernel)) noticeLast (List.prefix_refl _)
    (by decide +kernel) (by decide +kernel)

def overtaken : List (Event Bool Bool) :=
  atTheSameTime ++ [.answer (true, false) 1, .record (true, false), .publish (true, false) true,
    .receive false 0 true freshId "2026-01-05", .notice false "2", .answer (false, false) 0]

def afterBoth (t : String) (events : List (Event Bool Bool)) : Bool × Bool × Option ShipmentStatus :=
  let actions := actionsAt false System.start events
  (actions.any (Action.notices t), actions.any (Action.records "s1" t),
    ((events.foldl step System.start).replica false).statusOf "s1")

theorem notice_lost :
    afterBoth "1" (orderCreated ++ [.notice false "1", .record (false, false), .publish (false, false) true,
      .receive false 0 true freshId "2026-01-05"]) = (true, true, some .confirmed) ∧
    afterBoth "2" overtaken = (true, true, some .dispatched) ∧
    afterBoth "2" (overtaken ++ [.record (false, false)]) = (true, true, some .confirmed) := by
  decide +kernel

end Logistics.Gateway
