import Logistics.Gateway

namespace Logistics.Gateway

open Shipments TrimSpace List

variable {ι θ : Type} {sys sys' : System ι θ} {owner : String → String} {user user' s t : String}
  {sent sent' : List Call} {orders orders' : List (Call × Nat)}

def Digits (text : String) : Prop := ∀ c ∈ text.toList, c.isDigit

def Held (owner : String → String) (request : ShipmentRequest) : Prop :=
  owner (trimSpace request.shipmentId) = request.owner ∧ ¬ Digits (trimSpace request.shipmentId)

instance (text : String) : Decidable (Digits text) := List.decidableBAll _ _

instance (owner : String → String) (request : ShipmentRequest) : Decidable (Held owner request) :=
  inferInstanceAs (Decidable (_ ∧ _))

def Placed (orders : List (Call × Nat)) (user t : String) : Prop :=
  ∃ order ∈ orders, toString order.2 = t ∧ order.1.caller = user

def Entitled (owner : String → String) (orders : List (Call × Nat)) (user identifier : String) : Prop :=
  owner identifier = user ∧ ¬ Digits identifier ∨ Placed orders user identifier

def DispatchCommand.Lawful (owner : String → String) (orders : List (Call × Nat)) (command : DispatchCommand) : Prop :=
  Entitled owner orders command.caller (trimSpace command.shipmentId)

def QueueMessage.Lawful (owner : String → String) (orders : List (Call × Nat)) : QueueMessage → Prop
  | .createShipment request => Held owner request.toShipmentRequest
  | .dispatchConfirmed caller s t => owner (trimSpace s) = caller ∧ Placed orders caller t

def Task.Lawful (owner : String → String) (sent : List Call) (orders : List (Call × Nat)) : Task → Prop
  | .idle => True
  | .registered request | .unpublished request => Held owner request.toShipmentRequest
  | .permitted command => command.Lawful owner orders
  | .looked caller record => Held owner record.request ∧ record.request.owner = caller
  | .waiting caller record number =>
    (Held owner record.request ∧ record.request.owner = caller) ∧
      ∃ call, sent[number]? = some call ∧ call.caller = caller
  | .answered caller record t => (Held owner record.request ∧ record.request.owner = caller) ∧ Placed orders caller t
  | .recorded caller s t => owner (trimSpace s) = caller ∧ Placed orders caller t

def ActionLawful (owner : String → String) (orders : List (Call × Nat)) : Action → Prop
  | .register request uuid _ => Held owner (Dispatcher.prepared request uuid).toShipmentRequest
  | .confirm s t => Placed orders (owner (trimSpace s)) t
  | .complete record t => Held owner record.request ∧ Placed orders record.request.owner t
  | .delete _ | .cancel _ _ | .mark _ => True

structure Owned (owner : String → String) (sys : System ι θ) : Prop where
  tracked : ∀ r s record, (sys.replica r).shipments.find? s = some record → Held owner record.request
  recorded : ∀ r s t, (sys.replica r).transactions.find? t = some (t, s) → Placed sys.orders (owner (trimSpace s)) t
  queued : ∀ r, ∀ message ∈ sys.fanout r, message.Lawful owner sys.orders
  shared : ∀ command ∈ sys.shared, command.Lawful owner sys.orders
  task : ∀ p, (sys.task p).Lawful owner sys.sent sys.orders
  sent : ∀ call ∈ sys.sent, call.request.owner = call.caller
  flight : ∀ call ∈ sys.flight, sys.sent[call.number]? = some call
  replies : ∀ number hubId id, (number, .order hubId id) ∈ sys.replies →
    ∃ call, sys.sent[number]? = some call ∧ (call, id) ∈ sys.orders
  orders : (sys.orders.map Prod.snd).Nodup

theorem Placed.digits (h : Placed orders user t) : Digits t := by
  obtain ⟨order, -, rfl, -⟩ := h
  intro c hc
  rw [toList_toString] at hc
  exact Nat.isDigit_of_mem_toDigits (by decide) (by decide) hc

theorem Placed.mono (h : Placed orders user t) (hsub : orders ⊆ orders') : Placed orders' user t := by
  obtain ⟨order, horder, hid, huser⟩ := h
  exact ⟨order, hsub horder, hid, huser⟩

theorem Placed.unique (h : Placed orders user t) (h' : Placed orders user' t) (hids : (orders.map Prod.snd).Nodup) :
    user = user' := by
  obtain ⟨order, horder, hid, rfl⟩ := h
  obtain ⟨order', horder', hid', rfl⟩ := h'
  have heq : order.2 = order'.2 := DecimalText.toString_injective (hid.trans hid'.symm)
  rw [inj_on_of_nodup_map hids horder horder' heq]

theorem Entitled.mono (h : Entitled owner orders user s) (hsub : orders ⊆ orders') : Entitled owner orders' user s :=
  h.imp_right fun hplaced => hplaced.mono hsub

theorem Entitled.unique (h : Entitled owner orders user s) (h' : Entitled owner orders user' s)
    (hids : (orders.map Prod.snd).Nodup) : user = user' := by
  rcases h with ⟨rfl, hdigits⟩ | hplaced
  · rcases h' with ⟨rfl, -⟩ | hplaced'
    · rfl
    · exact absurd hplaced'.digits hdigits
  · rcases h' with ⟨-, hdigits⟩ | hplaced'
    · exact absurd hplaced.digits hdigits
    · exact hplaced.unique hplaced' hids

theorem QueueMessage.Lawful.mono {message : QueueMessage} (h : message.Lawful owner orders) (hsub : orders ⊆ orders') :
    message.Lawful owner orders' := by
  cases message with
  | createShipment request => exact h
  | dispatchConfirmed caller s t => exact ⟨h.1, h.2.mono hsub⟩

theorem Task.Lawful.mono {task : Task} (h : task.Lawful owner sent orders)
    (hsent : ∀ (n : Nat) call, sent[n]? = some call → sent'[n]? = some call) (hsub : orders ⊆ orders') :
    task.Lawful owner sent' orders' := by
  cases task with
  | idle | registered | unpublished | looked => exact h
  | permitted command => exact Entitled.mono h hsub
  | waiting caller record number =>
    obtain ⟨hheld, call, hcall, hcaller⟩ := h
    exact ⟨hheld, call, hsent number call hcall, hcaller⟩
  | answered caller record t | recorded caller s t => exact ⟨h.1, h.2.mono hsub⟩

theorem owned_start : Owned owner (System.start : System ι θ) where
  tracked := by rintro r s record ⟨⟩
  recorded := by rintro r s t ⟨⟩
  queued := by rintro r message ⟨⟩
  shared := by rintro command ⟨⟩
  task _ := trivial
  sent := by rintro call ⟨⟩
  flight := by rintro call ⟨⟩
  replies := by rintro number hubId id ⟨⟩
  orders := nodup_nil

theorem Owned.lookup (h : Owned owner sys) {r : ι} {identifier : String} {record : TrackedShipment}
    (hfound : (sys.replica r).lookupShipmentLocked (trimSpace identifier) = some record) :
    Held owner record.request ∧ Entitled owner sys.orders record.request.owner (trimSpace identifier) := by
  rcases Dispatcher.lookupShipmentLocked_cases hfound with hfind | ⟨s, htransaction, hfind⟩
  · have hheld := h.tracked r _ record hfind
    have hid : record.request.shipmentId = trimSpace identifier := Dispatcher.shipmentId_of_find? hfind
    refine ⟨hheld, .inl ?_⟩
    rwa [Held, hid, trimSpace_trimSpace] at hheld
  · have hheld := h.tracked r _ record hfind
    have hid : record.request.shipmentId = s := Dispatcher.shipmentId_of_find? hfind
    refine ⟨hheld, .inr ?_⟩
    rw [← hheld.1, hid]
    exact h.recorded r s _ htransaction

open ApiGateway

def Assigned (owner : String → String) : Event ι θ → Prop
  | .create _ caller (some body) uuid _ =>
    Held owner (Dispatcher.prepared { body with owner := caller } uuid).toShipmentRequest
  | _ => True

instance (owner : String → String) : (e : Event ι θ) → Decidable (Assigned owner e)
  | .create _ caller (some body) uuid _ =>
    inferInstanceAs
      (Decidable (Held owner (Dispatcher.prepared { body with owner := caller } uuid).toShipmentRequest))
  | .create _ _ none _ _ | .dispatch _ _ _ | .status _ _ _ | .cancel _ _ _ | .publish _ _ | .discard _
  | .receive _ _ _ _ _ | .take _ _ _ | .send _ | .execute _ _ _ _ _ | .answer _ _ | .fail _ | .record _
  | .notice _ _ => isTrue trivial

theorem Owned.broadcast (h : Owned owner sys) {message : QueueMessage} (hmessage : message.Lawful owner sys.orders) :
    Owned owner (sys.broadcast message) where
  __ := h
  queued r queued hqueued := by
    rcases mem_append.mp hqueued with hold | hnew
    · exact h.queued r queued hold
    · rw [mem_singleton.mp hnew]
      exact hmessage

theorem Owned.enqueue (h : Owned owner sys) {command : DispatchCommand} (hcommand : command.Lawful owner sys.orders) :
    Owned owner (sys.enqueue command) where
  __ := h
  shared queued hqueued := by
    rcases mem_append.mp hqueued with hold | hnew
    · exact h.shared queued hold
    · rw [mem_singleton.mp hnew]
      exact hcommand

theorem Owned.settleShared (h : Owned owner sys) (n : Nat) (acked : Bool) : Owned owner (sys.settleShared n acked) := by
  rw [settleShared_eq]
  exact { h with shared := fun command hcommand => h.shared command (mem_settleShared _ _ _ hcommand) }

variable {call : Call}

theorem Owned.transmit (h : Owned owner sys) (hnumber : call.number = sys.sent.length)
    (howner : call.request.owner = call.caller) : Owned owner (sys.transmit call) := by
  have hsent : ∀ (n : Nat) old, sys.sent[n]? = some old → (sys.sent ++ [call])[n]? = some old := by
    intro n old hold
    rw [getElem?_append_left (List.getElem?_eq_some_iff.mp hold).1, hold]
  exact
    { h with
      task := fun p => (h.task p).mono hsent (Subset.refl _)
      sent := by
        intro old hold
        rcases mem_append.mp hold with hold | hnew
        · exact h.sent old hold
        · rw [mem_singleton.mp hnew]
          exact howner
      flight := by
        intro old hold
        rcases mem_append.mp hold with hold | hnew
        · exact hsent _ _ (h.flight old hold)
        · rw [mem_singleton.mp hnew, hnumber]
          exact getElem?_concat_length
      replies := by
        intro number hubId id hreply
        obtain ⟨old, hold, horder⟩ := h.replies number hubId id hreply
        exact ⟨old, hsent _ _ hold, horder⟩ }

theorem nodup_created {reply : Reply} (h : (orders.map Prod.snd).Nodup)
    (hfresh : ∀ hubId id, reply = .order hubId id → ∀ order ∈ orders, order.2 < id) :
    ((orders ++ created call reply).map Prod.snd).Nodup := by
  cases reply with
  | order hubId id =>
    rw [map_append]
    refine Nodup.append h (nodup_singleton id) ?_
    intro n hold hnew
    obtain ⟨order, horder, rfl⟩ := mem_map.mp hold
    exact (hfresh hubId id rfl order horder).ne (mem_singleton.mp hnew)
  | error | pong | status =>
    change ((orders ++ []).map Prod.snd).Nodup
    rwa [append_nil]

theorem Owned.reply (h : Owned owner sys) {n : Nat} {reply : Reply} (hcall : sys.flight[n]? = some call)
    (hfresh : ∀ hubId id, reply = .order hubId id → ∀ order ∈ sys.orders, order.2 < id) :
    Owned owner (sys.reply n call reply) := by
  have hsub : sys.orders ⊆ sys.orders ++ created call reply := subset_append_left _ _
  exact
    { h with
      recorded := fun r s t ht => (h.recorded r s t ht).mono hsub
      queued := fun r message hmessage => (h.queued r message hmessage).mono hsub
      shared := fun command hcommand => Entitled.mono (h.shared command hcommand) hsub
      task := fun p => (h.task p).mono (fun _ _ hold => hold) hsub
      flight := fun old hold => h.flight old (mem_of_mem_eraseIdx hold)
      replies := by
        intro number hubId id hreply
        rcases mem_append.mp hreply with hold | hnew
        · obtain ⟨old, hsent, horder⟩ := h.replies number hubId id hold
          exact ⟨old, hsent, hsub horder⟩
        · cases mem_singleton.mp hnew
          exact ⟨call, h.flight call (mem_of_getElem? hcall), mem_append_right _ mem_cons_self⟩
      orders := nodup_created h.orders hfresh }

theorem Owned.of_task (h : Owned owner sys) {p : ι × θ} {task : Task} (htask : sys.task p = task) :
    task.Lawful owner sys.sent sys.orders :=
  htask ▸ h.task p

variable [DecidableEq ι]

theorem Owned.act (h : Owned owner sys) {r : ι} {action : Action} (haction : ActionLawful owner sys.orders action) :
    Owned owner (sys.act r action) where
  __ := h
  tracked r' s record hrecord := by
    rw [replica_act] at hrecord
    split at hrecord
    · rcases (Dispatcher.acts _ _).find?_cases hrecord with ⟨old, hold, hsame, -⟩ | ⟨request, uuid, now, rfl, hrequest⟩ |
        ⟨copy, rfl, hrequest⟩
      · rw [hsame]
        exact h.tracked r s old hold
      · rw [hrequest]
        exact haction
      · rw [hrequest]
        exact haction.1
    · exact h.tracked r' s record hrecord
  recorded r' s t ht := by
    rw [replica_act] at ht
    split at ht
    · rcases (Dispatcher.acts _ _).transactions ht with hold | rfl | ⟨record, rfl, rfl⟩
      · exact h.recorded r s t hold
      · exact haction
      · rw [TrackedShipment.shipmentId, haction.1.1]
        exact haction.2
    · exact h.recorded r' s t ht

theorem Owned.settle (h : Owned owner sys) (r : ι) (n : Nat) (acked : Bool) : Owned owner (sys.settle r n acked) := by
  rw [settle_eq]
  exact { h with queued := fun r' message hmessage => h.queued r' message (mem_settle _ _ _ _ hmessage) }

variable [DecidableEq θ] {e : Event ι θ}

theorem Owned.setTask (h : Owned owner sys) {p : ι × θ} {task : Task} (htask : task.Lawful owner sys.sent sys.orders) :
    Owned owner (sys.setTask p task) where
  __ := h
  task := forall_task_setTask htask h.task

theorem Turn.owned (h : Turn sys e sys') (hs : Owned owner sys) (he : Assigned owner e) : Owned owner sys' := by
  cases h with
  | stay => exact hs
  | create hidle => refine (hs.act ?_).setTask ?_ <;> exact he
  | @dispatch p caller shipmentId record hidle hfound howner =>
    have hentitled := (hs.lookup hfound).2
    rw [howner] at hentitled
    exact hs.setTask hentitled
  | cancel | notice => exact hs.act trivial
  | announce htask | confirm htask =>
    refine (hs.broadcast ?_).setTask trivial
    exact hs.of_task htask
  | unpublished htask =>
    have hheld := hs.of_task htask
    exact hs.setTask hheld
  | enqueue htask => exact (hs.enqueue (hs.of_task htask)).setTask trivial
  | drop => exact hs.setTask trivial
  | discard htask => refine (hs.act ?_).setTask ?_ <;> exact trivial
  | @receive r n acked uuid now message hmessage =>
    have hlawful := hs.queued r message (mem_of_getElem? hmessage)
    have hacted : Owned owner (sys.act r (message.action uuid now)) := by
      refine hs.act ?_
      cases message with
      | createShipment request =>
        change Held owner (Dispatcher.prepared request.toShipmentRequest uuid).toShipmentRequest
        rw [Dispatcher.prepared_prepared]
        exact hlawful
      | dispatchConfirmed caller s t =>
        obtain ⟨rfl, hplaced⟩ := hlawful
        exact hplaced
    exact hacted.settle r n acked
  | @take p n acked command record hidle hcommand hfound hblank =>
    obtain ⟨hheld, hentitled⟩ := hs.lookup hfound
    have hsame : Owned owner (sys.settleShared n acked) := hs.settleShared n acked
    exact hsame.setTask ⟨hheld, hentitled.unique (hs.shared command (mem_of_getElem? hcommand)) hs.orders⟩
  | skip => exact hs.settleShared _ _
  | @send p caller record htask =>
    have hheld := hs.of_task htask
    have hsent : Owned owner (sys.transmit ⟨sys.sent.length, caller, record.request⟩) := hs.transmit rfl hheld.2
    exact hsent.setTask ⟨hheld, _, getElem?_concat_length, rfl⟩
  | execute hcall hfresh => exact hs.reply hcall hfresh
  | @answer p n caller record number hubId id htask hreply =>
    obtain ⟨hheld, call, hcall, hcaller⟩ := hs.of_task htask
    obtain ⟨call', hcall', horder⟩ := hs.replies number hubId id hreply
    cases hcall.symm.trans hcall'
    exact hs.setTask ⟨hheld, (call, id), horder, rfl, hcaller⟩
  | @record p caller record t htask =>
    obtain ⟨⟨hheld, rfl⟩, hplaced⟩ := hs.of_task htask
    refine (hs.act ?_).setTask ⟨hheld.1, hplaced⟩
    exact ⟨hheld, hplaced⟩

theorem owned_foldl (events : List (Event ι θ)) (h : ∀ e ∈ events, Assigned owner e) :
    Owned owner (events.foldl step System.start) := by
  induction events using List.reverseRecOn with
  | nil => exact owned_start
  | append_singleton events e ih =>
    rw [foldl_append]
    exact (turn_step _ e).owned (ih fun e' he' => h e' (mem_append_left _ he'))
      (h e (mem_append_right _ mem_cons_self))

end Logistics.Gateway
