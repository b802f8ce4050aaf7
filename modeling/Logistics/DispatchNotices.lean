import Logistics.ShipmentFrames
import Logistics.Reachability

namespace Logistics.Shipments

open KeyedTable RowVersions TrimSpace

variable {d : Dispatcher} {s t : String} {action : Action} {old : TrackedShipment}

namespace Action

def notices (t : String) : Action → Bool
  | .mark t' => trimSpace t' = t
  | _ => false

def records (s t : String) : Action → Bool
  | .confirm s' t' => s' = s ∧ t' = t
  | .complete record t' => record.shipmentId = s ∧ t' = t
  | _ => false

def Apart (s t : String) (recorded : Bool) : Action → Prop
  | .register _ _ _ | .mark _ => True
  | .delete s' => trimSpace s' ≠ s
  | .cancel s' _ => trimSpace s' = s → recorded
  | .confirm s' t' => s' ≠ s ∧ t' ≠ t
  | .complete record t' => record.shipmentId ≠ s ∧ t' ≠ t

instance (s t : String) (recorded : Bool) : (action : Action) → Decidable (action.Apart s t recorded)
  | .register _ _ _ | .mark _ => isTrue trivial
  | .delete s' => inferInstanceAs (Decidable (trimSpace s' ≠ s))
  | .cancel s' _ => inferInstanceAs (Decidable (trimSpace s' = s → recorded = true))
  | .confirm s' t' => inferInstanceAs (Decidable (s' ≠ s ∧ t' ≠ t))
  | .complete record t' => inferInstanceAs (Decidable (record.shipmentId ≠ s ∧ t' ≠ t))

end Action

namespace Dispatcher

def statusOf (d : Dispatcher) (s : String) : Option ShipmentStatus := (d.shipments.find? s).map TrackedShipment.status

structure Awaits (s t : String) (d : Dispatcher) : Prop where
  tracked : ∃ record, d.shipments.find? s = some record ∧ trimSpace record.transactionId = ""
  fresh : ∀ s' record, d.shipments.find? s' = some record → record.transactionId ≠ t

structure Recorded (s t : String) (d : Dispatcher) : Prop where
  tracked : ∃ record, d.shipments.find? s = some record ∧ record.transactionId = t ∧
    record.status ≠ .pendingConfirmation
  transaction : d.transactions.find? t = some (t, s)
  only : ∀ s' record, d.shipments.find? s' = some record → record.transactionId = t → s' = s

theorem transactionId_act_cases {record : TrackedShipment} (h : (d.act action).shipments.find? s = some record) :
    record.transactionId = "" ∨ (∃ old, d.shipments.find? s = some old ∧ record.transactionId = old.transactionId) ∨
      action.records s record.transactionId := by
  rcases (d.acts action).find?_cases h with ⟨old, hold, -, hsame | ⟨-, rfl⟩⟩ | ⟨request, uuid, now, rfl, -⟩ |
    ⟨copy, rfl, hrequest⟩
  · exact .inr (.inl ⟨old, hold, hsame⟩)
  · exact .inr (.inr (decide_eq_true ⟨rfl, rfl⟩))
  · change (d.shipments.put (d.registered _ now)).find? s = _ at h
    rw [find?_put, shipmentId_registered] at h
    split at h
    · next hs =>
      cases h
      rw [registered, ← hs]
      split
      · exact .inl rfl
      · next old hold => exact .inr (.inl ⟨old, hold, rfl⟩)
    · exact .inr (.inl ⟨record, h, rfl⟩)
  · have hid : copy.shipmentId = s :=
      (congrArg ShipmentRequest.shipmentId hrequest).symm.trans (shipmentId_of_find? h)
    exact .inr (.inr (decide_eq_true ⟨hid, rfl⟩))

theorem Acts.find?_of_apart {d' : Dispatcher} {recorded : Bool} (hacts : Acts d action d')
    (h : action.Apart s t recorded) (hold : d.shipments.find? s = some old)
    (hstatus : recorded → old.status ≠ .pendingConfirmation) : ∃ record, d'.shipments.find? s = some record ∧
    record.transactionId = old.transactionId ∧ (record.status = old.status ∨ record.status = .dispatched) := by
  by_cases hne : d'.shipments.find? s = d.shipments.find? s
  · exact ⟨old, hne.trans hold, rfl, .inl rfl⟩
  have hwrites : d.writes action = some s := by
    by_contra hother
    exact hne (hacts.find?_of_ne hother)
  cases hacts with
  | idle => exact absurd rfl hne
  | register =>
    rw [find?_put, shipmentId_registered, if_pos (Option.some.inj hwrites).symm]
    refine ⟨_, rfl, ?_⟩
    rw [registered, Option.some.inj hwrites, hold]
    exact ⟨rfl, .inl rfl⟩
  | @mark s' t record htransaction hfind =>
    rw [writes, htransaction] at hwrites
    obtain rfl : s' = s := Option.some.inj hwrites
    cases hold.symm.trans hfind
    have hid : s' = old.shipmentId := (shipmentId_of_find? hold).symm
    exact ⟨_, (find?_put _ _ _).trans (if_pos hid), rfl, .inr rfl⟩
  | cancel hfind _ hpending =>
    rw [Option.some.inj hwrites] at hfind
    cases hold.symm.trans hfind
    exact absurd hpending (hstatus (h (Option.some.inj hwrites)))
  | delete => exact absurd (Option.some.inj hwrites) h
  | confirm | complete => exact absurd (Option.some.inj hwrites) h.1

theorem not_records_of_apart {recorded : Bool} {s' : String} (h : action.Apart s t recorded) :
    ¬ action.records s' t := by
  cases action with
  | confirm _ _ | complete _ _ => exact fun hrecords => h.2 (of_decide_eq_true hrecords).2
  | register | delete | cancel | mark => exact Bool.false_ne_true

theorem not_notices_of_records {t' : String} (h : action.records s t) : action.notices t' = false := by
  cases action with
  | confirm | complete => rfl
  | register | delete | cancel | mark => cases h

theorem recorded_complete {copy : TrackedShipment} (hid : copy.shipmentId = s)
    (honly : ∀ s' record, d.shipments.find? s' = some record → record.transactionId = t → s' = s) :
    Recorded s t (d.dispatchComplete copy t) ∧ (d.dispatchComplete copy t).statusOf s = some .confirmed := by
  have hfind : ∀ s', (d.dispatchComplete copy t).shipments.find? s' =
      if s' = s then some { copy with transactionId := t, status := .confirmed } else d.shipments.find? s' := by
    intro s'
    rw [dispatchComplete, find?_put]
    exact if_congr (iff_of_eq (congrArg (s' = ·) hid)) rfl rfl
  refine ⟨⟨⟨_, (hfind s).trans (if_pos rfl), rfl, by rintro ⟨⟩⟩, ?_, ?_⟩, ?_⟩
  · rw [dispatchComplete, find?_put, hid]
    exact if_pos rfl
  · intro s' record hrecord hsame
    rw [hfind] at hrecord
    split at hrecord
    · next hs => exact hs
    · exact honly s' record hrecord hsame
  · rw [statusOf, hfind, if_pos rfl]
    rfl

theorem Awaits.act (h : Awaits s t d) (ht : trimSpace t ≠ "") (haction : action.Apart s t false) :
    Awaits s t (d.act action) := by
  obtain ⟨old, hold, hblank⟩ := h.tracked
  obtain ⟨record, hrecord, hsame, -⟩ := (d.acts action).find?_of_apart haction hold (by rintro ⟨⟩)
  refine ⟨⟨record, hrecord, hsame ▸ hblank⟩, ?_⟩
  rintro s' found hfound rfl
  rcases transactionId_act_cases hfound with hempty | ⟨old', hold', hsame'⟩ | hrecords
  · exact ht ((congrArg trimSpace hempty).trans (by decide))
  · exact h.fresh s' old' hold' hsame'.symm
  · exact not_records_of_apart haction hrecords

theorem Awaits.recorded (h : Awaits s t d) (haction : action.records s t) :
    Recorded s t (d.act action) ∧ (d.act action).statusOf s = some .confirmed := by
  have honly : ∀ s' record, d.shipments.find? s' = some record → record.transactionId = t → s' = s :=
    fun s' record hrecord hsame => absurd hsame (h.fresh s' record hrecord)
  cases action with
  | confirm s' t' =>
    obtain ⟨rfl, rfl⟩ := of_decide_eq_true haction
    obtain ⟨old, hold, hblank⟩ := h.tracked
    have hid : old.shipmentId = s' := shipmentId_of_find? hold
    have hcomplete : d.act (.confirm s' t') = d.dispatchComplete old t' := by
      simp only [Dispatcher.act, dispatchConfirmed, hold, if_pos hblank, dispatchComplete, hid]
    rw [hcomplete]
    exact recorded_complete hid honly
  | complete copy t' =>
    obtain ⟨hid, rfl⟩ := of_decide_eq_true haction
    exact recorded_complete hid honly
  | register | delete | cancel | mark => cases haction

theorem Recorded.confirm (h : Recorded s t d) (ht : trimSpace t ≠ "") : d.act (.confirm s t) = d := by
  obtain ⟨record, hrecord, hsame, -⟩ := h.tracked
  generalize hafter : d.act (.confirm s t) = d'
  cases hafter ▸ d.acts (.confirm s t) with
  | idle => rfl
  | confirm hfound hblank =>
    cases hrecord.symm.trans hfound
    exact absurd hblank (hsame ▸ ht)

theorem Recorded.again (h : Recorded s t d) (ht : trimSpace t ≠ "") (haction : action.records s t) :
    Recorded s t (d.act action) ∧ (action = .confirm s t ∧ d.act action = d ∨
      action ≠ .confirm s t ∧ (d.act action).statusOf s = some .confirmed) := by
  cases action with
  | confirm s' t' =>
    obtain ⟨rfl, rfl⟩ := of_decide_eq_true haction
    have hsame : d.act (.confirm s' t') = d := h.confirm ht
    exact ⟨hsame.symm ▸ h, .inl ⟨rfl, hsame⟩⟩
  | complete copy t' =>
    obtain ⟨hid, rfl⟩ := of_decide_eq_true haction
    obtain ⟨hrecorded, hstatus⟩ := recorded_complete hid h.only
    exact ⟨hrecorded, .inr ⟨by rintro ⟨⟩, hstatus⟩⟩
  | register | delete | cancel | mark => cases haction

theorem find?_forget_transactions {record : TrackedShipment} (h : record.transactionId ≠ t) :
    (d.forget record).transactions.find? t = d.transactions.find? t := by
  unfold forget
  split
  · rfl
  · rw [Table.find?_erase, if_neg h.symm]

theorem Recorded.transactions_act {d' : Dispatcher} (h : Recorded s t d) (hacts : Acts d action d')
    (haction : action.Apart s t true) : d'.transactions.find? t = some (t, s) := by
  cases hacts with
  | idle | register | mark => exact h.transaction
  | delete hfind => rw [find?_forget_transactions fun hsame => haction (h.only _ _ hfind hsame), h.transaction]
  | cancel hfind _ hpending =>
    rw [find?_forget_transactions, h.transaction]
    intro hsame
    obtain ⟨record, hrecord, -, hstatus⟩ := h.tracked
    rw [h.only _ _ hfind hsame] at hfind
    cases hrecord.symm.trans hfind
    exact hstatus hpending
  | confirm | complete => rw [dispatchComplete, find?_put, if_neg haction.2.symm, h.transaction]

theorem Recorded.act (h : Recorded s t d) (ht : trimSpace t ≠ "") (haction : action.Apart s t true) :
    Recorded s t (d.act action) := by
  obtain ⟨old, hold, hsame, hstatus⟩ := h.tracked
  obtain ⟨record, hrecord, hkept, hnext⟩ := (d.acts action).find?_of_apart haction hold fun _ => hstatus
  refine ⟨⟨record, hrecord, hkept.trans hsame, ?_⟩, h.transactions_act (d.acts action) haction, ?_⟩
  · rcases hnext with heq | heq
    · exact heq ▸ hstatus
    · rw [heq]
      rintro ⟨⟩
  · rintro s' found hfound rfl
    rcases transactionId_act_cases hfound with hempty | ⟨old', hold', hsame'⟩ | hrecords
    · exact absurd ((congrArg trimSpace hempty).trans (by decide)) ht
    · exact h.only s' old' hold' hsame'.symm
    · exact absurd hrecords (not_records_of_apart haction)

theorem Recorded.dispatched (h : Recorded s t d) (ht : trimSpace t ≠ "") (haction : action.notices t) :
    (d.act action).statusOf s = some .dispatched := by
  cases action with
  | mark t' =>
    obtain rfl : trimSpace t' = t := of_decide_eq_true haction
    obtain ⟨record, hrecord, -⟩ := h.tracked
    have hid : record.shipmentId = s := shipmentId_of_find? hrecord
    have hblank : trimSpace t' ≠ "" := by rwa [trimSpace_trimSpace] at ht
    have hmarked : d.act (.mark t') =
        { d with shipments := d.shipments.put { record with status := .dispatched } } := by
      simp only [Dispatcher.act, markDispatched, if_neg hblank, h.transaction, Option.bind_some, hrecord]
    rw [hmarked, statusOf, find?_put]
    change Option.map _ (if s = record.shipmentId then _ else _) = _
    rw [if_pos hid.symm]
    rfl
  | register | delete | cancel | confirm | complete => cases haction

theorem statusOf_act_of_apart {recorded : Bool} (h : action.Apart s t recorded)
    (hstatus : d.statusOf s = some .dispatched) : (d.act action).statusOf s = some .dispatched := by
  obtain ⟨old, hold, hdispatched⟩ := Option.map_eq_some_iff.mp hstatus
  obtain ⟨record, hrecord, -, hnext⟩ := (d.acts action).find?_of_apart h hold fun _ => by rw [hdispatched]; rintro ⟨⟩
  rw [statusOf, hrecord]
  rcases hnext with heq | heq
  · exact congrArg some (heq.trans hdispatched)
  · exact congrArg some heq

end Dispatcher

end Logistics.Shipments
