import Logistics.InventorySpec
import Logistics.Worker
import Logistics.Scenario

namespace Logistics.Worker

open List Option
open Ipc JsonManager Database InventoryManager InventorySpec ApiGateway Deserialize MessageHandler Scenario

variable {cfg : Config} {parse : String → Option Json} {o : Oracle} {req : RequestSlot} {store : Store} {root : Json}

/-- The request gets past all the early exits of `process_request` with the
document `root`. -/
structure Accepted (parse : String → Option Json) (req : RequestSlot) (deadSessions : Finset String) (root : Json) :
    Prop where
  connected : req.isDisconnect = false
  alive : ¬ (req.sessionId ≠ "" ∧ req.sessionId ∈ deadSessions)
  welcome : req.isBlacklisted = false
  parsed : parse req.rawJson = some root
  authorized : categorizeMessage (deserializeMessage root).msgType = .authRequest ∨ req.isAuthenticated = true

theorem processRequest_of_accepted (h : Accepted parse req store.deadSessions root) :
    processRequest cfg parse o req store = handleMessage cfg o root req store := by
  obtain ⟨hc, ha, hw, hp, hauth⟩ := h
  rw [processRequest, if_neg (by simp [hc]), if_neg ha, if_neg (by simp [hw]), hp]
  simp only
  rw [if_neg fun hne => ?_]
  rcases hauth with hauth | hauth
  · exact hne.1 hauth
  · exact Bool.false_ne_true (hne.2.symm.trans hauth)

theorem processRequest_of_refused (hc : req.isDisconnect = false)
    (h : ∀ root, ¬ Accepted parse req store.deadSessions root) :
    processRequest cfg parse o req store = (some [], store) := by
  rw [processRequest, if_neg (by simp [hc])]
  split
  · rfl
  · next ha =>
    split
    · rfl
    · next hw =>
      split
      · rfl
      · next root hp =>
        rw [if_pos]
        by_contra hauth
        rw [not_and_or, not_ne_iff, Bool.not_eq_false] at hauth
        exact h root ⟨hc, ha, by simpa using hw, hp, hauth⟩

theorem processRequest_cases (cfg : Config) (parse : String → Option Json) (o : Oracle) (req : RequestSlot)
    (store : Store) : req.isDisconnect = true ∨ req.isDisconnect = false ∧
    (∀ root, ¬ Accepted parse req store.deadSessions root) ∧ processRequest cfg parse o req store = (some [], store) ∨
    ∃ root, Accepted parse req store.deadSessions root ∧ processRequest cfg parse o req store =
    handleMessage cfg o root req store := by
  by_cases hc : req.isDisconnect = true
  · exact .inl hc
  · rw [Bool.not_eq_true] at hc
    by_cases h : ∃ root, Accepted parse req store.deadSessions root
    · obtain ⟨root, hroot⟩ := h
      exact .inr (.inr ⟨root, hroot, processRequest_of_accepted hroot⟩)
    · rw [not_exists] at h
      exact .inr (.inl ⟨hc, h, processRequest_of_refused hc h⟩)

section Slots

variable {Q : Slot → Prop} {stamp : String} {msg : Message}

theorem forall_generateAck
    (h : req.isAuthenticated = true → ∀ msg, Q (makeSendResponse req.sessionId (.message msg none))) :
    ∀ slot ∈ (generateAck parse stamp req).toList, Q slot := by
  intro slot hslot
  rw [mem_toList, generateAck] at hslot
  split at hslot
  · cases hslot
  next hgo =>
  simp only [not_or, Bool.not_eq_false] at hgo
  obtain ⟨msg, -, hslot⟩ := bind_eq_some_iff.mp hslot
  rw [generateAckIfNeeded] at hslot
  split at hslot
  · cases hslot
  split at hslot
  · cases hslot
  obtain ⟨ack, -, rfl⟩ := map_eq_some_iff.mp hslot
  exact h hgo.2.2 ack

theorem forall_handleAuthRequest
    (hmark : ∀ clientType username, Q (makeMarkAuthenticated req.sessionId clientType username))
    (hsend : ∀ msg, Q (makeSendResponse req.sessionId (.message msg none)))
    (hstart : ∀ msg, Q (makeStartTimer cfg req.sessionId msg))
    (hkeepalive : Q (makeStartKeepaliveTimer cfg req.sessionId)) :
    ∀ slot ∈ (handleAuthRequest cfg o msg req store).1, Q slot := by
  simp only [handleAuthRequest]
  split
  · exact forall_mem_nil _
  · split
    · simp only [forall_mem_append, forall_mem_cons]
      refine ⟨⟨⟨⟨hmark _ _, hsend _, forall_mem_nil _⟩, ?_⟩, ?_⟩, ?_⟩
      · split
        · exact forall_mem_nil _
        · exact forall_mem_singleton.mpr (hstart _)
      · split
        · exact forall_mem_nil _
        · simp only [forall_mem_cons]
          exact ⟨hsend _, hstart _, forall_mem_nil _⟩
      · split
        · exact forall_mem_nil _
        · exact forall_mem_singleton.mpr hkeepalive
    · exact forall_mem_singleton.mpr (hsend _)

theorem forall_handleMessage (hauth : categorizeMessage (deserializeMessage root).msgType = .authRequest →
      ∀ slot ∈ (handleAuthRequest cfg o (deserializeMessage root) req store).1, Q slot)
    (hcancel : ∀ stamp, Q (makeCancelTimer req.sessionId stamp)) (hreset : Q (makeResetKeepaliveTimer req.sessionId))
    (hother : categorizeMessage (deserializeMessage root).msgType ≠ .authRequest → ∀ r ∈ (handleOtherMessage o
      req.sessionId (deserializeMessage root) (readCommand root) store.db).1.getD [], Q (slotOf cfg r)) :
    ∀ slot ∈ (handleMessage cfg o root req store).1.getD [], Q slot := by
  rw [handleMessage]
  dsimp only
  split
  · next hcat => exact hauth hcat
  · exact forall_mem_singleton.mpr (hcancel _)
  · exact forall_mem_singleton.mpr hreset
  · next hcat _ _ =>
    intro slot hslot
    cases hout : (handleOtherMessage o req.sessionId (deserializeMessage root) (readCommand root) store.db).1 with
    | none =>
      rw [hout] at hslot
      cases hslot
    | some out =>
      rw [hout] at hslot
      obtain ⟨r, hr, rfl⟩ := mem_map.mp hslot
      exact hother hcat r (by rw [hout]; exact hr)

theorem forall_processRequest (h : ∀ root, ∀ slot ∈ (handleMessage cfg o root req store).1.getD [], Q slot) :
    ∀ slot ∈ (processRequest cfg parse o req store).1.getD [], Q slot := by
  rcases processRequest_cases cfg parse o req store with hc | ⟨-, -, he⟩ | ⟨root, -, he⟩
  · rw [processRequest, if_pos hc]
    exact forall_mem_nil _
  · rw [he]
    exact forall_mem_nil _
  · rw [he]
    exact h root

end Slots

theorem handleOtherMessage_eq_none (sessionId : String) (msg : Message) (command : Command) (db : Db) :
    (handleOtherMessage o sessionId msg command db).1 = none ↔
      categorizeMessage msg.msgType = .invUpdate ∧ StoreFails (o.attempt 0) msg := by
  rw [handleOtherMessage]
  cases hcat : categorizeMessage msg.msgType with
  | invUpdate =>
    simp only [handleInventoryUpdate, true_and]
    rw [← perform_storeInventory_eq_false (o.attempt 0) msg db]
    by_cases hs : (perform (o.attempt 0) (storeInventory msg) db).1 = false
    · rw [if_pos hs]
      exact iff_of_true rfl hs
    · rw [if_neg hs]
      refine iff_of_false ?_ hs
      by_cases hrole : msg.sourceRole = warehouse
      · rw [if_pos hrole]
        exact some_ne_none _
      · rw [if_neg hrole]
        exact some_ne_none _
  | _ =>
    simp only [reduceCtorEq, false_and, iff_false]
    repeat' split
    all_goals exact some_ne_none _

theorem handleMessage_eq_none : (handleMessage cfg o root req store).1 = none ↔
    categorizeMessage (deserializeMessage root).msgType = .invUpdate ∧
      StoreFails (o.attempt 0) (deserializeMessage root) := by
  rw [← handleOtherMessage_eq_none req.sessionId _ (readCommand root) store.db, handleMessage]
  cases hcat : categorizeMessage (deserializeMessage root).msgType with
  | authRequest | ackMessage | keepaliveMsg => simp [handleOtherMessage, hcat]
  | _ => simp

/-- An inventory update whose own transaction fails. Unlike the other handlers,
`handle_inventory_update` lets the exception through. -/
def UncaughtUpdate (parse : String → Option Json) (o : Oracle) (req : RequestSlot) (deadSessions : Finset String) :
    Prop :=
  ∃ root, Accepted parse req deadSessions root ∧ categorizeMessage (deserializeMessage root).msgType = .invUpdate ∧
    StoreFails (o.attempt 0) (deserializeMessage root)

theorem processRequest_eq_none (cfg : Config) :
    (processRequest cfg parse o req store).1 = none ↔ UncaughtUpdate parse o req store.deadSessions := by
  rcases processRequest_cases cfg parse o req store with hc | ⟨-, hrefused, he⟩ | ⟨root, hroot, he⟩
  · refine iff_of_false ?_ fun ⟨root, h, _⟩ => Bool.false_ne_true (h.connected.symm.trans hc)
    rw [processRequest, if_pos hc]
    exact some_ne_none _
  · rw [he]
    exact iff_of_false (some_ne_none _) fun ⟨root, h, _⟩ => hrefused root h
  · rw [he, handleMessage_eq_none]
    constructor
    · intro h
      exact ⟨root, hroot, h⟩
    · rintro ⟨root', hroot', h⟩
      obtain rfl : root = root' := some.inj (hroot.parsed.symm.trans hroot'.parsed)
      exact h

structure Turn where
  request : RequestSlot
  ackStamp : String
  oracle : Oracle
  store : Store

def workerThread (cfg : Config) (parse : String → Option Json) : List Turn → List Slot × Bool
  | [] => ([], true)
  | t :: rest =>
    let ack := (generateAck parse t.ackStamp t.request).toList
    match (processRequest cfg parse t.oracle t.request t.store).1 with
    | none => (ack, false)
    | some responses =>
      let next := workerThread cfg parse rest
      (ack ++ responses ++ next.1, next.2)

/-- A worker thread gets through its requests exactly when none of them is an inventory
update whose own transaction fails. -/
theorem worker_survives_iff (cfg : Config) (parse : String → Option Json) (turns : List Turn) :
    (workerThread cfg parse turns).2 = true ↔
      ∀ t ∈ turns, ¬ UncaughtUpdate parse t.oracle t.request t.store.deadSessions := by
  induction turns with
  | nil => exact iff_of_true rfl (forall_mem_nil _)
  | cons t rest ih =>
    rw [forall_mem_cons, ← processRequest_eq_none cfg, ← ih, workerThread]
    cases (processRequest cfg parse t.oracle t.request t.store).1 with
    | none => simp
    | some responses => simp

def emptyStore : Store := ⟨emptyDb, .empty, ∅⟩

def undatedUpdate : Json :=
  .object [("msg_type", .string "HUB_TO_SERVER__INVENTORY_UPDATE"), ("source_role", .string "HUB"),
    ("source_id", .string "h1"), ("timestamp", .string "abc")]

theorem undated_update_ends_worker : (workerThread ⟨5, 3, 30⟩ (fun _ => some undatedUpdate)
      [⟨⟨"tcp_session_1", .tcp, "", 0, true, false, false, "HUB", "h1"⟩, "2026-01-01",
        plainOracle, emptyStore⟩]).2 = false := by
  decide

end Logistics.Worker
