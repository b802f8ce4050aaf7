import Mathlib.Algebra.Order.BigOperators.Group.List
import Logistics.Serialize

namespace Logistics.Serialize

open Ipc JsonManager Deserialize Worker Server JsonText List

variable {text : String}

theorem length_printString (h : Unescaped text) : (printString text).length = text.length + 2 := by
  rw [printString, flatMap_escape h, length_append, length_cons, length_singleton, String.length_toList]

theorem length_intercalate (text : List Char) (texts : List (List Char)) :
    ([','].intercalate (text :: texts)).length + 1 = ((text :: texts).map fun text => text.length + 1).sum := by
  induction texts generalizing text with
  | nil => simp [List.intercalate]
  | cons next texts ih =>
    have hcons : [','].intercalate (text :: next :: texts) = text ++ ',' :: [','].intercalate (next :: texts) := by
      simp [List.intercalate, List.intersperse]
    rw [hcons, length_append, length_cons, map_cons, sum_cons, ← ih]
    omega

theorem length_number {value : Int} (hlo : -2 ^ 31 ≤ value) (hhi : value < 2 ^ 31) :
    (printUnformatted (.number value)).length ≤ 11 := by
  have hdigits (n : Nat) (h : n ≤ 2 ^ 31) : (Nat.toDigits 10 n).length ≤ 10 :=
    Nat.toDigits_length 10 n 10 (by decide) (by omega)
  cases value with
  | ofNat n => exact (hdigits n (by simp at hhi; omega)).trans (by decide)
  | negSucc n => exact Nat.succ_le_succ (hdigits (n + 1) (by omega))

theorem length_object (keys : List String) {field : String × Doc Int} {fields : List (String × Doc Int)}
    (hkeys : (field :: fields).map Prod.fst = keys) (h : ∀ key ∈ keys, Unescaped key) :
    (printUnformatted (.object (field :: fields))).length = 1 + (keys.map fun key => key.length + 4).sum +
        ((field :: fields).map fun f => (printUnformatted f.2).length).sum := by
  have hwidth (f : String × Doc Int) (hf : f ∈ field :: fields) :
      (printString f.1 ++ ':' :: printUnformatted f.2).length + 1 =
        f.1.length + 4 + (printUnformatted f.2).length := by
    rw [length_append, length_cons, length_printString (h f.1 (hkeys ▸ mem_map_of_mem hf))]
    omega
  have hsum : (((field :: fields).map fun f => printString f.1 ++ ':' :: printUnformatted f.2).map fun text =>
      text.length + 1).sum = (keys.map fun key => key.length + 4).sum +
        ((field :: fields).map fun f => (printUnformatted f.2).length).sum := by
    rw [← hkeys, map_map, map_map, ← sum_map_add]
    exact congrArg List.sum (map_congr_left hwidth)
  rw [map_cons, ← length_intercalate] at hsum
  rw [printUnformatted_object, map_cons]
  simp only [length_append, length_cons, length_nil] at hsum ⊢
  omega

theorem length_object_le (keys : List String) (bounds : List Nat) {field : String × Json}
    {fields : List (String × Json)} {n : Nat} (hkeys : (field :: fields).map Prod.fst = keys)
    (h : ∀ key ∈ keys, Unescaped key)
    (hbounds : Forall₂ (fun f n => (printUnformatted f.2).length ≤ n) (field :: fields) bounds)
    (hn : 1 + (keys.map fun key => key.length + 4).sum + bounds.sum ≤ n) :
    (printUnformatted (.object (field :: fields))).length ≤ n := by
  rw [length_object keys hkeys h]
  exact (Nat.add_le_add_left (Forall₂.sum_le_sum (forall₂_map_left_iff.mpr hbounds)) _).trans hn

theorem length_array_le (items : List Json) {width : Nat} (h : ∀ item ∈ items, (printUnformatted item).length ≤ width) :
    (printUnformatted (.array items)).length ≤ 2 + items.length * (width + 1) := by
  cases items with
  | nil => simp [printUnformatted_array]
  | cons item items =>
    have hsum : (((item :: items).map printUnformatted).map fun text => text.length + 1).sum ≤
        (item :: items).length * (width + 1) := by
      rw [map_map]
      refine (sum_le_card_nsmul _ (width + 1) ?_).trans ?_
      · intro n hn
        obtain ⟨item', hmem, rfl⟩ := mem_map.mp hn
        exact Nat.succ_le_succ (h item' hmem)
      · rw [length_map]
        exact Nat.le_refl _
    rw [map_cons, ← length_intercalate] at hsum
    rw [printUnformatted_array, map_cons]
    simp only [length_append, length_cons, length_nil] at hsum ⊢
    omega

def payloadTexts : Payload → List String
  | .authRequest username password => [username, password]
  | .authResponse _ => []
  | .keepalive message => [message]
  | .items list => list.orderTimestamp :: (ofFn list.items).map Item.itemName
  | .clientEmergency _ emergencyType => [emergencyType]
  | .serverEmergency _ instructions => [instructions]
  | .acknowledgment _ ackForTimestamp => [ackForTimestamp]
  | .genericArgs args => [args]

def payloadNumbers : Payload → List Int
  | .authResponse statusCode => [statusCode]
  | .items list => (ofFn list.items).flatMap fun item => [item.itemId, item.quantity]
  | .clientEmergency emergencyCode _ => [emergencyCode]
  | .serverEmergency emergencyCode _ => [emergencyCode]
  | .acknowledgment statusCode _ => [statusCode]
  | _ => []

structure Plain (msg : Message) : Prop where
  headers : ∀ text ∈ [msg.msgType.text, msg.sourceRole, msg.sourceId, msg.targetRole, msg.targetId, msg.timestamp,
    msg.checksum], Unescaped text
  texts : ∀ text ∈ payloadTexts msg.payload, Unescaped text
  numbers : ∀ value ∈ payloadNumbers msg.payload, -2 ^ 31 ≤ value ∧ value < 2 ^ 31

theorem length_text_le {size : Nat} (h : Unescaped text) (hlen : text.length < size) :
    (printUnformatted (.string text : Json)).length ≤ size + 1 := by
  rw [printUnformatted_string, length_printString h]
  omega

theorem length_item_le {item : Item} (hname : Unescaped item.itemName) (hlen : item.itemName.length < itemNameSize)
    (hid : (printUnformatted (.number item.itemId)).length ≤ 11)
    (hquantity : (printUnformatted (.number item.quantity)).length ≤ 11) :
    (printUnformatted (serializeItem item)).length ≤ 92 := by
  have htext : _ ≤ 33 := length_text_le hname hlen
  exact length_object_le ["item_id", "item_name", "quantity"] [11, 33, 11] rfl (by decide)
    (.cons hid (.cons htext (.cons hquantity .nil))) (by decide)

theorem length_itemsList_le {list : ItemsList} (h : TerminatedPayload (.items list))
    (htexts : ∀ text ∈ payloadTexts (.items list), Unescaped text)
    (hnumbers : ∀ value ∈ payloadNumbers (.items list), (printUnformatted (.number value)).length ≤ 11) :
    (printUnformatted (serializeItemsList list)).length ≤ 622 := by
  have hitem : ∀ tree ∈ (listed list.items).map serializeItem, (printUnformatted tree).length ≤ 92 := by
    intro tree htree
    obtain ⟨item, hitem, rfl⟩ := mem_map.mp htree
    have hmem : item ∈ ofFn list.items := mem_of_mem_filter hitem
    obtain ⟨i, hi⟩ := mem_ofFn.mp hmem
    apply length_item_le (htexts _ (mem_cons_of_mem _ (mem_map_of_mem hmem))) (hi ▸ h.1 i)
    · exact hnumbers _ (mem_flatMap.mpr ⟨item, hmem, mem_cons_self⟩)
    · exact hnumbers _ (mem_flatMap.mpr ⟨item, hmem, mem_cons_of_mem _ mem_cons_self⟩)
  have hitems : (printUnformatted (.array ((listed list.items).map serializeItem))).length ≤ 560 := by
    have hle := length_array_le _ hitem
    have hcount := length_listed list.items
    rw [length_map] at hle
    omega
  have hstamp : _ ≤ 33 := length_text_le (htexts _ mem_cons_self) h.2
  rw [serializeItemsList]
  split
  · exact length_object_le ["items"] [560] rfl (by decide) (.cons hitems .nil) (by decide)
  · exact length_object_le ["items", "order_timestamp"] [560, 33] rfl (by decide) (.cons hitems (.cons hstamp .nil))
      (by decide)

theorem length_pair_le {key key' : String} {value value' : Json} {n n' : Nat} (hkeys : ∀ k ∈ [key, key'], Unescaped k)
    (hvalue : (printUnformatted value).length ≤ n) (hvalue' : (printUnformatted value').length ≤ n')
    (hn : 1 + ([key, key'].map fun key => key.length + 4).sum + [n, n'].sum ≤ 622) :
    (printUnformatted (.object [(key, value), (key', value')])).length ≤ 622 :=
  length_object_le [key, key'] [n, n'] rfl hkeys (.cons hvalue (.cons hvalue' .nil)) hn

theorem length_single_le {key : String} {value : Json} {n : Nat} (hkeys : ∀ k ∈ [key], Unescaped k)
    (hvalue : (printUnformatted value).length ≤ n) (hn : 1 + ([key].map fun key => key.length + 4).sum + [n].sum ≤ 622)
    : (printUnformatted (.object [(key, value)])).length ≤ 622 :=
  length_object_le [key] [n] rfl hkeys (.cons hvalue .nil) hn

theorem length_payload_le {payload : Payload} (h : TerminatedPayload payload)
    (htexts : ∀ text ∈ payloadTexts payload, Unescaped text)
    (hnumbers : ∀ value ∈ payloadNumbers payload, (printUnformatted (.number value)).length ≤ 11) :
    (printUnformatted (serializePayload payload)).length ≤ 622 := by
  cases payload with
  | authRequest username password =>
    exact length_pair_le (by decide) (length_text_le (htexts _ (by simp [payloadTexts])) h.1)
      (length_text_le (htexts _ (by simp [payloadTexts])) h.2) (by decide)
  | authResponse statusCode => exact length_single_le (by decide) (hnumbers _ (by simp [payloadNumbers])) (by decide)
  | keepalive message | genericArgs args =>
    exact length_single_le (by decide) (length_text_le (htexts _ (by simp [payloadTexts])) h) (by decide)
  | items list => exact length_itemsList_le h htexts hnumbers
  | clientEmergency emergencyCode emergencyType | serverEmergency emergencyCode instructions
  | acknowledgment statusCode ackForTimestamp =>
    exact length_pair_le (by decide) (hnumbers _ (by simp [payloadNumbers]))
      (length_text_le (htexts _ (by simp [payloadTexts])) h) (by decide)

theorem length_message_le {msg : Message} (h : Terminated msg) (hplain : Plain msg) :
    (printUnformatted (serializeMessage msg)).length ≤ 902 := by
  have hpayload : (printUnformatted (serializePayload msg.payload)).length ≤ 622 :=
    length_payload_le h.payload hplain.texts fun value hvalue =>
      length_number (hplain.numbers value hvalue).1 (hplain.numbers value hvalue).2
  have hheaders := hplain.headers
  simp only [forall_mem_cons] at hheaders
  obtain ⟨htype, hrole, hid, hrole', hid', hstamp, hsum, -⟩ := hheaders
  have h₁ : _ ≤ 65 := length_text_le htype h.msgType
  have h₂ : _ ≤ 17 := length_text_le hrole h.sourceRole
  have h₃ : _ ≤ 17 := length_text_le hid h.sourceId
  have h₄ : _ ≤ 17 := length_text_le hrole' h.targetRole
  have h₅ : _ ≤ 17 := length_text_le hid' h.targetId
  have h₆ : _ ≤ 33 := length_text_le hstamp h.timestamp
  have h₇ : _ ≤ 9 := length_text_le hsum h.checksum
  rw [serializeMessage]
  split
  · exact length_object_le ["msg_type", "source_role", "source_id", "target_role", "target_id", "timestamp", "payload",
      "checksum"] [65, 17, 17, 17, 17, 33, 622, 9] rfl (by decide) (.cons h₁ (.cons h₂ (.cons h₃ (.cons h₄ (.cons h₅
        (.cons h₆ (.cons hpayload (.cons h₇ .nil)))))))) (by decide)
  · exact length_object_le ["msg_type", "source_role", "source_id", "target_role", "target_id", "timestamp",
      "checksum"] [65, 17, 17, 17, 17, 33, 9] rfl (by decide) (.cons h₁ (.cons h₂ (.cons h₃ (.cons h₄ (.cons h₅
        (.cons h₆ (.cons h₇ .nil))))))) (by decide)

def responseSlot (printPreallocated : Json → Nat → Option String) (replyText : Frame → String) (slot : Slot) :
    ResponseSlot :=
  let text := match slot.payload with
    | .message msg _ => (serializeMessageToJson printPreallocated msg).getD ""
    | frame => replyText frame
  { command := slot.command
    sessionId := slot.sessionId
    payload := text
    payloadLen := text.length
    timerTimeout := slot.timerTimeout
    timerKey := slot.timerKey
    retryCount := slot.retryCount
    maxRetries := slot.maxRetries
    clientType := slot.clientType
    username := slot.username
    targetUsername := slot.targetUsername
    startAckTimer := slot.startAckTimer
    mqttTransactionId := slot.mqttTransactionId }

theorem printUnformatted_object_ne_nil (fields : List (String × Json)) : printUnformatted (.object fields) ≠ [] := by
  exact cons_ne_nil _ _

/-- The text of a message with plain fields fits into a frame and into a slot. -/
theorem messages_fit_frame (printPreallocated : Json → Nat → Option String) (replyText : Frame → String)
    (hcJson : ∀ tree size, (printUnformatted tree).length + 5 ≤ size →
      printPreallocated tree size = some (String.ofList (printUnformatted tree)))
    (msg : Message) (hterminated : Terminated msg) (hplain : Plain msg) :
    (printUnformatted (serializeMessage msg)).length < bufferSize ∧
      serializeMessageToJson printPreallocated msg = some (String.ofList (printUnformatted (serializeMessage msg))) ∧
      ∀ (slot : Slot) (transactionId : Option Nat), slot.payload = .message msg transactionId →
        (responseSlot printPreallocated replyText slot).payload ≠ "" := by
  have hle := length_message_le hterminated hplain
  have hfits : (printUnformatted (serializeMessage msg)).length + 5 ≤ bufferSize := by
    have : bufferSize = 1024 := rfl
    omega
  have hprinted : serializeMessageToJson printPreallocated msg =
      some (String.ofList (printUnformatted (serializeMessage msg))) := hcJson _ _ hfits
  refine ⟨by omega, hprinted, ?_⟩
  intro slot transactionId hslot hempty
  simp only [responseSlot, hslot, hprinted, Option.getD_some] at hempty
  have hnil : printUnformatted (serializeMessage msg) = [] := by
    rw [← String.toList_ofList (l := printUnformatted (serializeMessage msg)), hempty]
    rfl
  exact printUnformatted_object_ne_nil _ hnil

theorem stock_request_fits_frame : (printUnformatted (serializeMessage stockRequest)).length < bufferSize ∧
      serializeMessageToJson boundedPrint stockRequest =
        some (String.ofList (printUnformatted (serializeMessage stockRequest))) ∧
      ∀ (slot : Slot) (transactionId : Option Nat), slot.payload = .message stockRequest transactionId →
        (responseSlot boundedPrint (fun _ => "") slot).payload ≠ "" :=
  messages_fit_frame boundedPrint (fun _ => "") (fun _ _ h => if_pos h) stockRequest terminated_stockRequest
    ⟨by decide +kernel, by decide +kernel, by decide +kernel⟩

end Logistics.Serialize
