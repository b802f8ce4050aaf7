import Logistics.Shipments

namespace Logistics.Shipments.Dispatcher

open KeyedTable RowVersions TrimSpace

variable {d d' : Dispatcher} {s t : String} {record : TrackedShipment}

def writes (d : Dispatcher) : Action → Option String
  | .register request uuid _ => some (prepared request uuid).shipmentId
  | .delete shipmentId => some (trimSpace shipmentId)
  | .cancel shipmentId _ => some (trimSpace shipmentId)
  | .mark transactionId => (d.transactions.find? (trimSpace transactionId)).map Prod.snd
  | .confirm shipmentId _ => some shipmentId
  | .complete record _ => some record.shipmentId

variable {action : Action}

theorem find?_dispatchComplete : (d.dispatchComplete record t).shipments.find? s =
    if s = record.shipmentId then some { record with transactionId := t, status := .confirmed }
    else d.shipments.find? s :=
  find?_put _ _ _

theorem Acts.find?_of_ne (hacts : Acts d action d') (h : d.writes action ≠ some s) :
    d'.shipments.find? s = d.shipments.find? s := by
  cases hacts with
  | idle => rfl
  | register =>
    rw [find?_put, shipmentId_registered, if_neg]
    rintro rfl
    exact h rfl
  | delete hfind | cancel hfind _ _ =>
    rw [find?_forget, shipmentId_of_find? hfind, if_neg]
    rintro rfl
    exact h rfl
  | mark htransaction hfind =>
    rw [find?_put, if_neg]
    rintro rfl
    rw [writes, htransaction, ← shipmentId_of_find? hfind] at h
    exact h rfl
  | confirm hfind _ =>
    rw [find?_dispatchComplete, shipmentId_of_find? hfind, if_neg]
    rintro rfl
    exact h rfl
  | complete =>
    rw [find?_dispatchComplete, if_neg]
    rintro rfl
    exact h rfl

theorem mem_forget_transactions {entry : String × String} (h : (d.forget record).transactions.find? t = some entry) :
    d.transactions.find? t = some entry := by
  unfold forget at h
  split at h
  · exact h
  · rw [Table.find?_erase] at h
    split at h
    · cases h
    · exact h

theorem Acts.find?_cases (hacts : Acts d action d') (h : d'.shipments.find? s = some record) :
    (∃ old, d.shipments.find? s = some old ∧ record.request = old.request ∧ (record.transactionId = old.transactionId ∨
        trimSpace old.transactionId = "" ∧ action = .confirm s record.transactionId)) ∨
      (∃ request uuid now, action = .register request uuid now ∧
        record.request = (prepared request uuid).toShipmentRequest) ∨
      ∃ copy, action = .complete copy record.transactionId ∧ record.request = copy.request := by
  by_cases hne : d.shipments.find? s = some record
  · exact .inl ⟨record, hne, rfl, .inl rfl⟩
  cases hacts with
  | idle => exact absurd h hne
  | @register request uuid now =>
    rw [find?_put] at h
    split at h
    · cases h
      refine .inr (.inl ⟨request, uuid, now, rfl, ?_⟩)
      rw [registered]
      split <;> rfl
    · exact absurd h hne
  | delete | cancel =>
    rw [find?_forget] at h
    split at h
    · cases h
    · exact absurd h hne
  | @mark s' t old htransaction hfind =>
    rw [find?_put] at h
    split at h
    · next hs =>
      cases h
      have hold : old.shipmentId = s' := shipmentId_of_find? hfind
      obtain rfl : s = s' := hs.trans hold
      exact .inl ⟨old, hfind, rfl, .inl rfl⟩
    · exact absurd h hne
  | @confirm s' t old hfind hblank =>
    rw [find?_dispatchComplete] at h
    split at h
    · next hs =>
      cases h
      obtain rfl : s = s' := hs.trans (shipmentId_of_find? hfind)
      exact .inl ⟨old, hfind, rfl, .inr ⟨hblank, rfl⟩⟩
    · exact absurd h hne
  | @complete copy t =>
    rw [find?_dispatchComplete] at h
    split at h
    · cases h
      exact .inr (.inr ⟨copy, rfl, rfl⟩)
    · exact absurd h hne

theorem Acts.transactions (hacts : Acts d action d') (h : d'.transactions.find? t = some (t, s)) :
    d.transactions.find? t = some (t, s) ∨ action = .confirm s t ∨
      ∃ record, action = .complete record t ∧ record.shipmentId = s := by
  cases hacts with
  | idle | register | mark => exact .inl h
  | delete | cancel => exact .inl (mem_forget_transactions h)
  | @confirm s' t' record hfind hblank =>
    rw [dispatchComplete, find?_put] at h
    split at h
    · cases h
      rw [shipmentId_of_find? hfind]
      exact .inr (.inl rfl)
    · exact .inl h
  | @complete record t' =>
    rw [dispatchComplete, find?_put] at h
    split at h
    · cases h
      exact .inr (.inr ⟨record, rfl, rfl⟩)
    · exact .inl h

end Logistics.Shipments.Dispatcher
