import Logistics.SingleOrder

namespace Logistics.Gateway

open KeyedTable Shipments TrimSpace List

variable {ι θ : Type} {sys sys' : System ι θ} {d : Dispatcher} {s : String} {r : ι}

def Task.creating : Task → Option String
  | .registered request => some request.shipmentId
  | _ => none

def Task.completing : Task → Option String
  | .waiting _ record _ => some record.shipmentId
  | .answered _ record _ => some record.shipmentId
  | _ => none

def QueueMessage.creates : QueueMessage → Option String
  | .createShipment request => some request.shipmentId
  | .dispatchConfirmed _ _ _ => none

def Event.creates : Event ι θ → Option String
  | .create _ _ (some body) uuid _ => some (Dispatcher.prepared body uuid).shipmentId
  | _ => none

def Hidden (d : Dispatcher) (s : String) : Prop :=
  (∀ identifier response, d.getShipment identifier = some response → response.shipmentId ≠ s) ∧
    ∀ owner, ∀ response ∈ d.snapshotForOwner owner, response.shipmentId ≠ s

/-- Nothing of a shipment is left that could bring it back to a replica or send the
command for it: no replica tracks it without a transaction, no create message for it
is queued or about to be, no worker is about to send the command, and none of this
replica is going to write its record back. -/
structure Finished (r : ι) (s : String) (sys : System ι θ) : Prop where
  tracked : ∀ r' record, (sys.replica r').shipments.find? s = some record → trimSpace record.transactionId ≠ ""
  queued : ∀ r', ∀ message ∈ sys.fanout r', message.creates ≠ some s
  creating : ∀ p, (sys.task p).creating ≠ some s
  sending : ∀ p, (sys.task p).sending ≠ some s
  completing : ∀ p, (sys.task p).completing = some s → p.1 ≠ r

def Answered (sys : System ι θ) : Prop := ∀ p caller record t, sys.task p = .answered caller record t → trimSpace t ≠ ""

structure Closed (r : ι) (s : String) (sys : System ι θ) : Prop extends Finished r s sys where
  untracked : (sys.replica r).shipments.find? s = none

variable {record : TrackedShipment}

theorem find?_of_lookup {identifier : String}
    (h : d.lookupShipmentLocked identifier = some record) : d.shipments.find? record.shipmentId = some record := by
  rcases Dispatcher.lookupShipmentLocked_cases h with hfound | ⟨s', -, hfound⟩
  · rwa [Dispatcher.shipmentId_of_find? hfound]
  · rwa [Dispatcher.shipmentId_of_find? hfound]

theorem hidden_of_untracked (h : d.shipments.find? s = none) : Hidden d s := by
  constructor
  · intro identifier response hshown
    unfold Dispatcher.getShipment at hshown
    split at hshown
    · cases hshown
    · obtain ⟨record, hrecord, rfl⟩ := Option.map_eq_some_iff.mp hshown
      rintro rfl
      cases h.symm.trans (find?_of_lookup hrecord)
  · intro owner response hlisted
    have hmem := mem_mergeSort.mp hlisted
    obtain ⟨record, hrecord, rfl⟩ := mem_map.mp hmem
    exact Table.find?_eq_none.mp h record (mem_of_mem_filter hrecord)

def Harmless (s : String) (action : Action) (copies : TrackedShipment → String → Prop) : Prop :=
  (∀ request uuid now, action = .register request uuid now → (Dispatcher.prepared request uuid).shipmentId ≠ s) ∧
    ∀ record t, action = .complete record t → record.shipmentId = s → copies record t

variable {action : Action}

theorem untracked_act (h : d.shipments.find? s = none)
    (hharmless : Harmless s action fun _ _ => False) : (d.act action).shipments.find? s = none := by
  refine Option.eq_none_iff_forall_ne_some.mpr fun record hrecord => ?_
  have hid := Dispatcher.shipmentId_of_find? hrecord
  rcases (d.acts action).find?_cases hrecord with ⟨old, hold, -⟩ | ⟨request, uuid, now, rfl, hrequest⟩ |
    ⟨copy, rfl, hrequest⟩
  · cases h.symm.trans hold
  · exact hharmless.1 _ _ _ rfl (hrequest ▸ hid)
  · exact hharmless.2 _ _ rfl ((congrArg ShipmentRequest.shipmentId hrequest).symm.trans hid)

theorem tracked_act (h : ∀ record, d.shipments.find? s = some record → trimSpace record.transactionId ≠ "")
    (hharmless : Harmless s action fun _ t => trimSpace t ≠ "")
    (hrecord : (d.act action).shipments.find? s = some record) : trimSpace record.transactionId ≠ "" := by
  have hid := Dispatcher.shipmentId_of_find? hrecord
  rcases (d.acts action).find?_cases hrecord with ⟨old, hold, -, hsame | ⟨hblank, -⟩⟩ |
    ⟨request, uuid, now, rfl, hrequest⟩ | ⟨copy, rfl, hrequest⟩
  · rw [hsame]
    exact h old hold
  · exact absurd hblank (h old hold)
  · exact absurd ((congrArg ShipmentRequest.shipmentId hrequest).symm.trans hid) (hharmless.1 _ _ _ rfl)
  · exact hharmless.2 _ _ rfl ((congrArg ShipmentRequest.shipmentId hrequest).symm.trans hid)

theorem Closed.congr (h : Closed r s sys) (hreplica : sys'.replica = sys.replica) (htask : sys'.task = sys.task)
    (hfanout : ∀ r', ∀ message ∈ sys'.fanout r', message.creates = some s → message ∈ sys.fanout r') :
    Closed r s sys' where
  tracked := by rw [hreplica]; exact h.tracked
  queued r' message hmessage hcreates := h.queued r' message (hfanout r' message hmessage hcreates) hcreates
  creating := by rw [htask]; exact h.creating
  sending := by rw [htask]; exact h.sending
  completing := by rw [htask]; exact h.completing
  untracked := by rw [hreplica]; exact h.untracked

theorem Closed.broadcast (h : Closed r s sys) {message : QueueMessage} (hmessage : message.creates ≠ some s) :
    Closed r s (sys.broadcast message) := by
  refine h.congr rfl rfl fun r' queued hqueued hcreates => ?_
  rcases mem_append.mp hqueued with hold | hnew
  · exact hold
  · rw [mem_singleton.mp hnew] at hcreates
    exact absurd hcreates hmessage

variable [DecidableEq ι]

theorem Closed.act (h : Closed r s sys) {r' : ι}
    (hharmless : Harmless s action fun _ t => r' ≠ r ∧ trimSpace t ≠ "") : Closed r s (sys.act r' action) where
  __ := h
  tracked q record hrecord := by
    rw [replica_act] at hrecord
    split at hrecord
    · exact tracked_act (h.tracked r') ⟨hharmless.1, fun copy t heq hid => (hharmless.2 copy t heq hid).2⟩ hrecord
    · exact h.tracked q record hrecord
  untracked := by
    rw [replica_act]
    split
    · next heq =>
      rw [← heq]
      exact untracked_act h.untracked ⟨hharmless.1, fun copy t hact hid => (hharmless.2 copy t hact hid).1 heq.symm⟩
    · exact h.untracked

variable [DecidableEq θ] {e : Event ι θ}

theorem Closed.setTask (h : Closed r s sys) {p : ι × θ} {task : Task} (hcreating : task.creating ≠ some s)
    (hsending : task.sending ≠ some s) (hcompleting : task.completing = some s → p.1 ≠ r) :
    Closed r s (sys.setTask p task) where
  __ := h
  creating := forall_task_setTask (P := fun _ task => task.creating ≠ some s) hcreating h.creating
  sending := forall_task_setTask (P := fun _ task => task.sending ≠ some s) hsending h.sending
  completing :=
    forall_task_setTask (P := fun q task => task.completing = some s → q.1 ≠ r) hcompleting h.completing

theorem Closed.idle (h : Closed r s sys) {p : ι × θ} : Closed r s (sys.setTask p .idle) :=
  h.setTask (by rintro ⟨⟩) (by rintro ⟨⟩) (by rintro ⟨⟩)

theorem Turn.closed (h : Turn sys e sys') (hs : Closed r s sys) (hanswered : Answered sys)
    (hnew : e.creates ≠ some s) : Closed r s sys' := by
  have hquiet : ∀ {r' : ι} {action : Action},
      (∀ request uuid now, action ≠ .register request uuid now) → (∀ record t, action ≠ .complete record t) →
      Closed r s (sys.act r' action) := fun hregister hcomplete =>
    hs.act ⟨fun request uuid now heq => absurd heq (hregister request uuid now),
      fun record t heq => absurd heq (hcomplete record t)⟩
  cases h with
  | stay => exact hs
  | @create p caller now uuid body hidle =>
    have hid : (Dispatcher.prepared { body with owner := caller } uuid).shipmentId ≠ s := by
      intro heq
      apply hnew
      rw [← heq, Event.creates, Dispatcher.prepared, Dispatcher.prepared]
      split <;> rfl
    have hacted : Closed r s (sys.act p.1 (.register { body with owner := caller } uuid now)) :=
      hs.act ⟨by rintro _ _ _ ⟨⟩; exact hid, by rintro _ _ ⟨⟩⟩
    exact hacted.setTask (fun heq => hid (Option.some.inj heq)) (by rintro ⟨⟩) (by rintro ⟨⟩)
  | dispatch | unpublished => exact hs.setTask (by rintro ⟨⟩) (by rintro ⟨⟩) (by rintro ⟨⟩)
  | cancel | notice => exact hquiet (by rintro _ _ _ ⟨⟩) (by rintro _ _ ⟨⟩)
  | @announce p request htask =>
    have hcreating := hs.creating p
    rw [htask] at hcreating
    refine (hs.broadcast ?_).idle
    exact hcreating
  | @enqueue p command =>
    have hsame : Closed r s (sys.enqueue command) := hs.congr rfl rfl fun _ _ h _ => h
    exact hsame.idle
  | confirm => exact (hs.broadcast (by rintro ⟨⟩)).idle
  | drop => exact hs.idle
  | discard => exact (hquiet (by rintro _ _ _ ⟨⟩) (by rintro _ _ ⟨⟩)).idle
  | @receive r' n acked uuid now message hmessage =>
    have hacted : Closed r s (sys.act r' (message.action uuid now)) := by
      cases message with
      | createShipment request =>
        have hid := hs.queued r' _ (mem_of_getElem? hmessage)
        refine hs.act ⟨?_, by rintro _ _ ⟨⟩⟩
        rintro _ _ _ ⟨⟩
        rw [Dispatcher.prepared_prepared]
        exact fun heq => hid (congrArg some heq)
      | dispatchConfirmed caller shipmentId t => exact hquiet (by rintro _ _ _ ⟨⟩) (by rintro _ _ ⟨⟩)
    rw [settle_eq]
    exact hacted.congr rfl rfl fun _ _ hmem _ => mem_settle _ _ _ _ hmem
  | @take p n acked command record hidle hcommand hfound hblank =>
    have hid : record.shipmentId ≠ s := by
      rintro rfl
      exact hs.tracked p.1 record (find?_of_lookup hfound) hblank
    rw [settleShared_eq]
    have hsame : Closed r s { sys with shared := (sys.settleShared n acked).shared } :=
      hs.congr rfl rfl fun _ _ h _ => h
    exact hsame.setTask (by rintro ⟨⟩) (fun heq => hid (Option.some.inj heq)) (by rintro ⟨⟩)
  | skip =>
    rw [settleShared_eq]
    exact hs.congr rfl rfl fun _ _ h _ => h
  | @send p caller record htask =>
    have hsending := hs.sending p
    rw [htask] at hsending
    have hsame : Closed r s (sys.transmit ⟨sys.sent.length, caller, record.request⟩) :=
      hs.congr rfl rfl fun _ _ h _ => h
    exact hsame.setTask (by rintro ⟨⟩) (by rintro ⟨⟩) (fun heq => absurd heq hsending)
  | execute => exact hs.congr rfl rfl fun _ _ h _ => h
  | @answer p n caller record number hubId id htask hreply =>
    have hcompleting := hs.completing p
    rw [htask] at hcompleting
    exact hs.setTask (by rintro ⟨⟩) (by rintro ⟨⟩) hcompleting
  | @record p caller copy t htask =>
    have hcompleting := hs.completing p
    rw [htask] at hcompleting
    have hacted : Closed r s (sys.act p.1 (.complete copy t)) := by
      refine hs.act ⟨by rintro _ _ _ ⟨⟩, ?_⟩
      rintro _ _ ⟨⟩ hid
      exact ⟨hcompleting (congrArg some hid), hanswered p caller copy t htask⟩
    exact hacted.setTask (by rintro ⟨⟩) (by rintro ⟨⟩) (by rintro ⟨⟩)

open Scenario

def System.sentFor (s : String) (sys : System ι θ) : Nat := sys.sent.countP fun call => call.request.shipmentId = s

theorem task_of_setTask {p q : ι × θ} {task found : Task} (h : (sys.setTask p task).task q = found) :
    task = found ∨ sys.task q = found := by
  rw [task_setTask] at h
  split at h
  · exact .inl h
  · exact .inr h

theorem Turn.answered (h : Turn sys e sys') (hs : Answered sys) : Answered sys' := by
  intro q caller record t hq
  cases h with
  | stay | cancel | notice | execute => exact hs q caller record t hq
  | receive =>
    rw [settle_eq] at hq
    exact hs q caller record t hq
  | skip =>
    rw [settleShared_eq] at hq
    exact hs q caller record t hq
  | take =>
    rw [settleShared_eq] at hq
    rcases task_of_setTask hq with ⟨⟨⟩⟩ | hold
    exact hs q caller record t hold
  | answer =>
    rcases task_of_setTask hq with heq | hold
    · cases heq
      rw [trimSpace_toString]
      exact toString_ne_empty _
    · exact hs q caller record t hold
  | create | dispatch | announce | unpublished | enqueue | confirm | drop | discard | send | record =>
    rcases task_of_setTask hq with ⟨⟨⟩⟩ | hold
    exact hs q caller record t hold

theorem answered_foldl (events : List (Event ι θ)) : Answered (events.foldl step (System.start : System ι θ)) := by
  induction events using List.reverseRecOn with
  | nil => rintro p caller record t ⟨⟩
  | append_singleton events e ih =>
    rw [foldl_append]
    exact (turn_step _ e).answered ih

theorem Turn.sentFor (h : Turn sys e sys') (hs : Closed r s sys) : sys'.sentFor s = sys.sentFor s := by
  cases h with
  | @send p caller record htask =>
    have hsending := hs.sending p
    rw [htask] at hsending
    change (sys.sent ++ [_]).countP _ = sys.sent.countP _
    rw [countP_append, countP_singleton, if_neg]
    · rfl
    · rw [decide_eq_true_iff]
      exact fun heq => hsending (congrArg some heq)
  | receive => rw [settle_eq]; rfl
  | take | skip => rw [settleShared_eq]; rfl
  | stay | cancel | notice | execute | answer | create | dispatch | announce | unpublished | enqueue | confirm | drop
  | discard | record => rfl

theorem closed_foldl (hs : Closed r s sys) (hanswered : Answered sys) (events : List (Event ι θ))
    (hnew : ∀ e ∈ events, e.creates ≠ some s) :
    Closed r s (events.foldl step sys) ∧ (events.foldl step sys).sentFor s = sys.sentFor s := by
  induction events generalizing sys with
  | nil => exact ⟨hs, rfl⟩
  | cons e events ih =>
    have hturn := turn_step sys e
    obtain ⟨hclosed, hsent⟩ := ih (hturn.closed hs hanswered (hnew e mem_cons_self)) (hturn.answered hanswered)
      fun e' he' => hnew e' (mem_cons_of_mem e he')
    exact ⟨hclosed, hsent.trans (hturn.sentFor hs)⟩

/-- A cancellation after which nothing of the shipment is left is final. -/
theorem cancelled_for_good (before after : List (Event ι θ)) (r : ι) (shipmentId caller : String)
    (response : StatusResponse)
    (hcancel : (((before.foldl step System.start).replica r).cancelShipment shipmentId caller).1 = .ok response)
    (hfinished : Finished r (trimSpace shipmentId)
      (step (before.foldl step System.start) (.cancel r shipmentId caller)))
    (hnew : ∀ e ∈ after, e.creates ≠ some (trimSpace shipmentId)) :
    Hidden ((after.foldl step (step (before.foldl step System.start) (.cancel r shipmentId caller))).replica r)
        (trimSpace shipmentId) ∧
      (after.foldl step (step (before.foldl step System.start) (.cancel r shipmentId caller))).sentFor
        (trimSpace shipmentId) = (before.foldl step System.start).sentFor (trimSpace shipmentId) := by
  have hanswered := answered_foldl before
  generalize before.foldl step System.start = sys at hcancel hfinished hanswered
  have huntracked :
      ((step sys (.cancel r shipmentId caller)).replica r).shipments.find? (trimSpace shipmentId) = none := by
    change ((sys.act r (.cancel shipmentId caller)).replica r).shipments.find? _ = none
    rw [replica_act, if_pos rfl]
    change ((sys.replica r).cancelShipment shipmentId caller).2.shipments.find? _ = none
    rcases (sys.replica r).cancelShipment_cases shipmentId caller with ⟨error, heq⟩ | ⟨record, hfind, -, -, heq⟩
    · rw [heq] at hcancel
      cases hcancel
    · rw [heq, Dispatcher.find?_forget, if_pos (Dispatcher.shipmentId_of_find? hfind).symm]
  have hclosed : Closed r (trimSpace shipmentId) (step sys (.cancel r shipmentId caller)) :=
    { hfinished with untracked := huntracked }
  obtain ⟨hend, hsent⟩ := closed_foldl hclosed ((turn_step sys _).answered hanswered) after hnew
  exact ⟨hidden_of_untracked hend.untracked, hsent⟩

def knownHere : List (Event Unit Unit) :=
  [.create ((), ()) "ann" (some food) freshId "2026-01-01", .publish ((), ()) true,
    .receive () 0 true freshId "2026-01-02"]

def lateDispatch : List (Event Unit Unit) :=
  [.dispatch ((), ()) "ann" (some "s1"), .publish ((), ()) true, .take ((), ()) 0 true, .send ((), ())]

theorem finished_knownHere : Finished () "s1" (step (knownHere.foldl step System.start) (.cancel () " s1" "ann")) where
  tracked r record h := by
    have hnone : ((step (knownHere.foldl step (System.start : System Unit Unit)) (.cancel () " s1" "ann")).replica
      ()).shipments.find? "s1" = none := by decide +kernel
    cases hnone.symm.trans h
  queued := by decide +kernel
  creating := by decide +kernel
  sending := by decide +kernel
  completing := by decide +kernel

theorem only_replica_cancels :
    Hidden ((lateDispatch.foldl step (step (knownHere.foldl step System.start) (.cancel () " s1" "ann"))).replica ())
        "s1" ∧
      (lateDispatch.foldl step (step (knownHere.foldl step System.start) (.cancel () " s1" "ann"))).sentFor "s1" =
        (knownHere.foldl step System.start).sentFor "s1" :=
  cancelled_for_good knownHere lateDispatch () " s1" "ann"
    ⟨"s1", "", "ann", "cancelled", "2026-01-01", [⟨1, "food", 5⟩]⟩
    (by decide +kernel) finished_knownHere (by decide +kernel)

def createQueued : List (Event Bool Bool) :=
  [.create (false, false) "ann" (some food) freshId "2026-01-01", .publish (false, false) true]

def workerBusy : List (Event Bool Bool) :=
  createQueued ++ [.receive false 0 true freshId "2026-01-02", .dispatch (false, false) "ann" (some "s1"),
    .publish (false, false) true, .take (false, false) 0 true]

def knownElsewhere : List (Event Bool Bool) :=
  createQueued ++ [.receive false 0 true freshId "2026-01-02", .receive true 0 true freshId "2026-01-02",
    .dispatch (false, false) "ann" (some "s1"), .publish (false, false) true]

def cancelled (before after : List (Event Bool Bool)) : Bool × Option StatusResponse × Nat :=
  let sys := before.foldl step System.start
  let sys' := after.foldl step (step sys (.cancel false "s1" "ann"))
  (((sys.replica false).cancelShipment "s1" "ann").1.isOk, (sys'.replica false).getShipment "s1", sys'.sentFor "s1")

theorem cancelled_comes_back : cancelled createQueued [.receive false 0 true freshId "2026-01-03"] =
      (true, some ⟨"s1", "", "ann", "pending_confirmation", "2026-01-03", [⟨1, "food", 5⟩]⟩, 0) ∧
    cancelled workerBusy [.send (false, false), .execute 0 plainOracle.attempt true "2026-01-03" emptyDb,
      .answer (false, false) 0, .record (false, false)] =
      (true, some ⟨"s1", "1", "ann", "confirmed", "2026-01-01", [⟨1, "food", 5⟩]⟩, 1) ∧
    cancelled knownElsewhere [.take (true, false) 0 true, .send (true, false)] = (true, none, 1) := by
  decide +kernel

end Logistics.Gateway
