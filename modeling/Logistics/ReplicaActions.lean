import Logistics.Gateway

namespace Logistics.Gateway

open Shipments List

variable {ι θ : Type} [DecidableEq ι] {r : ι} {sys : System ι θ}

def actionAt (r : ι) (sys : System ι θ) : Event ι θ → Option Action
  | .create p caller body uuid now =>
    match sys.task p, (Shipments.createShipment (sys.replica p.1) caller body uuid now).1, body with
    | .idle, .ok _, some body => if r = p.1 then some (.register { body with owner := caller } uuid now) else none
    | _, _, _ => none
  | .cancel r' shipmentId caller => if r = r' then some (.cancel shipmentId caller) else none
  | .discard p =>
    match sys.task p with
    | .unpublished request => if r = p.1 then some (.delete request.shipmentId) else none
    | _ => none
  | .receive r' n _ uuid now =>
    match (sys.fanout r')[n]? with
    | some message => if r = r' then some (message.action uuid now) else none
    | none => none
  | .record p =>
    match sys.task p with
    | .answered _ record transactionId => if r = p.1 then some (.complete record transactionId) else none
    | _ => none
  | .notice r' transactionId => if r = r' then some (.mark transactionId) else none
  | _ => none

theorem replica_act_eq (r' : ι) (action : Action) : (sys.act r' action).replica r =
    (if r = r' then some action else none).toList.foldl Dispatcher.act (sys.replica r) := by
  rw [replica_act]
  split
  · next heq => rw [heq]; rfl
  · rfl

variable [DecidableEq θ]

def actionsAt (r : ι) : System ι θ → List (Event ι θ) → List Action
  | _, [] => []
  | sys, e :: events => (actionAt r sys e).toList ++ actionsAt r (step sys e) events

theorem replica_step (r : ι) (sys : System ι θ) (e : Event ι θ) :
    (step sys e).replica r = (actionAt r sys e).toList.foldl Dispatcher.act (sys.replica r) := by
  cases e with
  | create p caller body uuid now =>
    cases htask : sys.task p with
    | idle =>
      cases hok : (Shipments.createShipment (sys.replica p.1) caller body uuid now).1 with
      | ok request =>
        cases body with
        | some body =>
          simp only [step, actionAt, htask, hok]
          exact replica_act_eq p.1 _
        | none => cases hok
      | error answer =>
        simp only [step, actionAt, htask, hok]
        rfl
    | _ =>
      simp only [step, actionAt, htask]
      rfl
  | cancel r' shipmentId caller | notice r' transactionId => exact replica_act_eq r' _
  | discard p =>
    cases htask : sys.task p with
    | unpublished request =>
      simp only [step, actionAt, htask]
      exact replica_act_eq p.1 _
    | _ =>
      simp only [step, actionAt, htask]
      rfl
  | receive r' n acked uuid now =>
    cases hmessage : (sys.fanout r')[n]? with
    | some message =>
      simp only [step, actionAt, hmessage]
      rw [settle_eq]
      exact replica_act_eq r' _
    | none =>
      simp only [step, actionAt, hmessage]
      rfl
  | record p =>
    cases htask : sys.task p with
    | answered caller record t =>
      simp only [step, actionAt, htask]
      exact replica_act_eq p.1 _
    | _ =>
      simp only [step, actionAt, htask]
      rfl
  | take p n acked =>
    simp only [step, actionAt]
    split
    · split
      · rw [settleShared_eq]
        rfl
      · rw [settleShared_eq]
        rfl
    · rfl
  | dispatch | publish | send | execute | answer | fail =>
    simp only [step, actionAt]
    repeat' split
    all_goals rfl
  | status => rfl

theorem replica_foldl (r : ι) (sys : System ι θ) (events : List (Event ι θ)) :
    (events.foldl step sys).replica r = (actionsAt r sys events).foldl Dispatcher.act (sys.replica r) := by
  induction events generalizing sys with
  | nil => rfl
  | cons e events ih => rw [foldl_cons, ih, replica_step, actionsAt, foldl_append]

theorem actionsAt_append (r : ι) (sys : System ι θ) (events events' : List (Event ι θ)) :
    actionsAt r sys (events ++ events') = actionsAt r sys events ++ actionsAt r (events.foldl step sys) events' := by
  induction events generalizing sys with
  | nil => rfl
  | cons e events ih => rw [cons_append, actionsAt, actionsAt, ih, append_assoc, foldl_cons]

theorem isPrefix_actionsAt {r : ι} {actions : List Action} {events : List (Event ι θ)} :
    actions <+: actionsAt r sys events ↔ ∃ before, before <+: events ∧ actionsAt r sys before = actions := by
  constructor
  · intro h
    induction events generalizing sys actions with
    | nil => exact ⟨[], prefix_rfl, (prefix_nil.mp h).symm⟩
    | cons e events ih =>
      rw [actionsAt] at h
      cases haction : actionAt r sys e with
      | none =>
        rw [haction] at h
        obtain ⟨before, hbefore, rfl⟩ := ih h
        exact ⟨e :: before, cons_prefix_cons.mpr ⟨rfl, hbefore⟩, by rw [actionsAt, haction]; rfl⟩
      | some action =>
        rw [haction] at h
        cases actions with
        | nil => exact ⟨[], nil_prefix, rfl⟩
        | cons first rest =>
          obtain ⟨rfl, hrest⟩ := cons_prefix_cons.mp h
          obtain ⟨before, hbefore, rfl⟩ := ih hrest
          exact ⟨e :: before, cons_prefix_cons.mpr ⟨rfl, hbefore⟩, by rw [actionsAt, haction]; rfl⟩
  · rintro ⟨before, ⟨after, rfl⟩, rfl⟩
    rw [actionsAt_append]
    exact prefix_append _ _

end Logistics.Gateway
