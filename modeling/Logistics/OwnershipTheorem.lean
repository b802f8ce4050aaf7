import Logistics.OwnedSteps
import Logistics.SingleOrder

namespace Logistics.Gateway

open KeyedTable Shipments TrimSpace Scenario

variable {ι θ : Type} {sys sys' : System ι θ} {d : Dispatcher} {owner : String → String} {user s : String}

def Task.caller : Task → Option String
  | .idle => none
  | .registered request | .unpublished request => some request.owner
  | .permitted command => some command.caller
  | .looked caller _ | .waiting caller _ _ | .answered caller _ _ | .recorded caller _ _ => some caller

def QueueMessage.caller : QueueMessage → String
  | .createShipment request => request.owner
  | .dispatchConfirmed caller _ _ => caller

/-- The user whose call a step is, or comes from. The name of a user is the one
without blanks around it. -/
def Causes (user : String) (sys : System ι θ) : Event ι θ → Prop
  | .create _ caller _ _ _ | .dispatch _ caller _ | .status _ caller _ => caller = user
  | .cancel _ _ caller => trimSpace caller = user
  | .publish p _ | .discard p | .send p | .answer p _ | .fail p | .record p => (sys.task p).caller = some user
  | .receive r n _ _ _ => (sys.fanout r)[n]?.map QueueMessage.caller = some user
  | .take _ n _ => sys.shared[n]?.map DispatchCommand.caller = some user
  | .execute n _ _ _ _ => sys.flight[n]?.map Call.caller = some user
  | .notice _ t => Placed sys.orders user (trimSpace t)

variable {record : TrackedShipment} {action : Action}

theorem find?_act_of_owner (hwrites : ∀ s', d.writes action = some s' → owner (trimSpace s') = user)
    (hrecord : d.shipments.find? s = some record) (hheld : Held owner record.request)
    (hother : record.request.owner ≠ user) : (d.act action).shipments.find? s = some record := by
  rw [(d.acts action).find?_of_ne, hrecord]
  intro hs
  have hid : record.request.shipmentId = s := Dispatcher.shipmentId_of_find? hrecord
  exact hother (hheld.1.symm.trans (hid ▸ hwrites s hs))

theorem find?_cancel_of_owner {shipmentId caller : String}
    (hrecord : d.shipments.find? s = some record) (hother : record.request.owner ≠ trimSpace caller) :
    (d.act (.cancel shipmentId caller)).shipments.find? s = some record := by
  generalize hafter : d.act (.cancel shipmentId caller) = d'
  cases hafter ▸ d.acts (.cancel shipmentId caller) with
  | idle => exact hrecord
  | cancel hfound howner _ =>
    rw [Dispatcher.find?_forget, Dispatcher.shipmentId_of_find? hfound, if_neg, hrecord]
    rintro rfl
    cases hrecord.symm.trans hfound
    exact hother howner

theorem owner_prepared (request : ShipmentRequest) (uuid : Uuid) :
    (Dispatcher.prepared request uuid).owner = request.owner := by
  rw [Dispatcher.prepared]
  split <;> rfl

variable [DecidableEq ι]

theorem untouched_act {r r' : ι} (hs : Owned owner sys)
    (hwrites : ∀ s', (sys.replica r').writes action = some s' → owner (trimSpace s') = user)
    (hrecord : (sys.replica r).shipments.find? s = some record) (hother : record.request.owner ≠ user) :
    ((sys.act r' action).replica r).shipments.find? s = some record := by
  rw [replica_act]
  split
  · next heq =>
    subst heq
    exact find?_act_of_owner hwrites hrecord (hs.tracked r s record hrecord) hother
  · exact hrecord

variable [DecidableEq θ] {e : Event ι θ}

theorem Turn.untouched (h : Turn sys e sys') (hs : Owned owner sys) (he : Assigned owner e) (huser : Causes user sys e)
    {r : ι} (hrecord : (sys.replica r).shipments.find? s = some record)
    (hother : record.request.owner ≠ user) : (sys'.replica r).shipments.find? s = some record := by
  cases h with
  | stay | dispatch | announce | unpublished | enqueue | confirm | drop | send | execute | answer => exact hrecord
  | take | skip =>
    rw [settleShared_eq]
    exact hrecord
  | @create p caller now uuid body hidle =>
    obtain rfl : caller = user := huser
    refine untouched_act hs ?_ hrecord hother
    intro s' hs'
    rw [← Option.some.inj hs']
    exact he.1.trans (owner_prepared _ uuid)
  | @cancel r' shipmentId caller =>
    obtain rfl : trimSpace caller = user := huser
    rw [replica_act]
    split
    · next heq =>
      subst heq
      exact find?_cancel_of_owner hrecord hother
    · exact hrecord
  | @discard p request htask =>
    have hheld := hs.of_task htask
    rw [Causes, htask] at huser
    refine untouched_act hs ?_ hrecord hother
    intro s' hs'
    rw [← Option.some.inj hs', trimSpace_trimSpace]
    exact hheld.1.trans (Option.some.inj huser)
  | @receive r' n acked uuid now message hmessage =>
    have hlawful := hs.queued r' message (List.mem_of_getElem? hmessage)
    rw [Causes, hmessage] at huser
    rw [settle_eq]
    refine untouched_act hs ?_ hrecord hother
    cases message with
    | createShipment request =>
      intro s' hs'
      rw [← Option.some.inj hs', Dispatcher.prepared_prepared]
      exact hlawful.1.trans (Option.some.inj huser)
    | dispatchConfirmed caller s' t =>
      rintro _ ⟨⟩
      exact hlawful.1.trans (Option.some.inj huser)
  | @record p caller copy t htask =>
    have hanswered := hs.of_task htask
    rw [Causes, htask] at huser
    refine untouched_act hs ?_ hrecord hother
    rintro _ ⟨⟩
    exact hanswered.1.1.1.trans (hanswered.1.2.trans (Option.some.inj huser))
  | @notice r' t =>
    refine untouched_act hs ?_ hrecord hother
    intro s' hs'
    obtain ⟨⟨t', _⟩, htransaction, rfl⟩ := Option.map_eq_some_iff.mp hs'
    obtain rfl : t' = trimSpace t := (Table.find?_eq_some.mp htransaction).2
    exact (hs.recorded r' _ _ htransaction).unique huser hs.orders

/-- If no two users have ids that are the same up to the blanks around them, and no id
is a number, a call leaves the shipments of all other users as they are, with all that
comes of it, and the core gets no command for them. -/
theorem others_untouched (owner : String → String) (events : List (Event ι θ)) (h : ∀ e ∈ events, Assigned owner e) :
    (∀ before e, before ++ [e] <+: events → ∀ user, Causes user (before.foldl step System.start) e →
      ∀ r s record, ((before.foldl step System.start).replica r).shipments.find? s = some record →
        record.request.owner ≠ user →
        ((step (before.foldl step System.start) e).replica r).shipments.find? s = some record) ∧
      ∀ call ∈ (events.foldl step System.start).sent, call.request.owner = call.caller := by
  refine ⟨?_, (owned_foldl events h).sent⟩
  intro before e hpre user huser r s record hrecord hother
  have hbefore : ∀ e' ∈ before ++ [e], Assigned owner e' := fun e' he' => h e' (hpre.subset he')
  have hs := owned_foldl before fun e' he' => hbefore e' (List.mem_append_left _ he')
  exact (turn_step _ e).untouched hs (hbefore e (List.mem_append_right _ List.mem_cons_self)) huser hrecord hother

def annsShipment : List (Event Bool Bool) :=
  [.create (false, false) "ann" (some food) freshId "2026-01-01", .publish (false, false) true,
    .receive false 0 true freshId "2026-01-02", .receive true 0 true freshId "2026-01-02"]

def unqueued (shipmentId : String) : List (Event Bool Bool) :=
  annsShipment ++
    [.create (false, true) "bob" (some { food with shipmentId }) freshId "2026-01-03", .publish (false, true) false]

theorem causes_unqueued : Causes "bob" ((unqueued "s2").foldl step System.start) (.discard (false, true)) := by
  have hcaller : (((unqueued "s2").foldl step System.start).task (false, true)).caller = some "bob" := by decide +kernel
  exact hcaller

theorem own_shipment_discarded :
    ((step ((unqueued "s2").foldl step System.start) (.discard (false, true))).replica false).shipments.find? "s1" =
      some ⟨⟨"s1", "ann", [⟨1, "food", 5⟩]⟩, "", .pendingConfirmation, "2026-01-01"⟩ :=
  (others_untouched (fun id => if id = "s1" then "ann" else "bob") (unqueued "s2" ++ [.discard (false, true)])
    (by decide +kernel)).1 (unqueued "s2") (.discard (false, true)) (List.prefix_refl _) "bob" causes_unqueued false
    "s1" _ (by decide +kernel) (by decide)

def numbered : List (Event Bool Bool) :=
  [.create (false, false) "bob" (some { food with shipmentId := "s2" }) freshId "2026-01-01",
    .publish (false, false) true,
    .dispatch (false, false) "bob" (some "s2"), .publish (false, false) true, .take (false, false) 0 true,
    .send (false, false), .execute 0 plainOracle.attempt true "2026-01-03" emptyDb, .answer (false, false) 0,
    .record (false, false), .create (true, false) "ann" (some { food with shipmentId := "1" }) freshId "2026-01-04",
    .dispatch (false, true) "bob" (some "1"), .publish (false, true) true, .take (true, true) 0 true,
    .send (true, true)]

def ownerOf (shipmentId : String) (events : List (Event Bool Bool)) : Option String :=
  (((events.foldl step System.start).replica false).shipments.find? shipmentId).map fun record => record.request.owner

theorem shipment_of_another_user : ownerOf "s1" annsShipment = some "ann" ∧ ownerOf "s1" (unqueued "s1") = some "bob" ∧
      ownerOf "s1" (unqueued "s1" ++ [.discard (false, true)]) = none ∧
      ownerOf "s1" (unqueued " s1" ++ [.discard (false, true)]) = none ∧
      (numbered.foldl step System.start).sent.map (fun call => (call.caller, call.request.owner)) =
        [("bob", "bob"), ("bob", "ann")] := by
  decide +kernel

end Logistics.Gateway
