import Logistics.RouteManager

namespace Logistics.RouteManager

open KeyedTable JsonManager JsonText Deserialize Serialize Database MqttClient Scenario List

variable {cfg : Config} {parse : String → Option Json} {id : Nat}

def TouchesOnly (id : Nat) (payload : MqttClient.Payload) : Prop :=
  ∀ a stamp employeeId s, ∀ t ∈ s.db.transactions.rows, t.transactionId ≠ id →
    t ∈ (handleDelivered a stamp employeeId payload s).db.transactions.rows

def onItsWay (id : Nat) : TransactionRow :=
  ⟨id, .stockRequest, some "warehouse_1", some warehouse, "hub_1", hub, .dispatched, fun _ => 1, 1, some 2, none⟩

def onItsWayOnly (id : Nat) : MqttClient.State :=
  ⟨⟨.empty, ⟨[onItsWay id], nodup_singleton _⟩, id + 1, fun _ ht => mem_singleton.mp ht ▸ Nat.lt_succ_self id⟩,
    .empty, 0, []⟩

theorem touchesOnly_iff (payload : MqttClient.Payload) (id : Nat) :
    TouchesOnly id payload ↔ payload.transactionId = none ∨ payload.transactionId = some id := by
  constructor
  · intro h
    cases hreport : payload.transactionId with
    | none => exact .inl rfl
    | some other =>
      right
      by_contra hne
      have hcompletes : Completes ⟨plainEnv, none⟩ "2026-01-03" := ⟨by simp, by simp, by decide⟩
      have hrow := h ⟨plainEnv, none⟩ "2026-01-03" "" (onItsWayOnly other) (onItsWay other) mem_cons_self
        fun heq => hne (congrArg some heq)
      obtain ⟨ts, hts⟩ := completeTransaction_completes hcompletes other (onItsWayOnly other).db
      rw [handleDelivered_db, hreport] at hrow
      rcases mem_updateRows.mp hrow with ⟨-, hother⟩ | ⟨t, -, -, ht⟩
      · exact hother rfl
      · cases congrArg TransactionRow.status ht
  · intro h a stamp employeeId s t ht hne
    rw [handleDelivered_db]
    rcases h with h | h
    · rw [h]
      exact ht
    · rw [h, Option.elim_some]
      by_cases hcompletes : Completes a stamp
      · obtain ⟨ts, hts⟩ := completeTransaction_completes hcompletes id s.db
        rw [hts]
        exact mem_updateRows.mpr (.inl ⟨ht, hne⟩)
      · rw [completeTransaction_fails hcompletes]
        exact ht

def destination (dest : Nat) : String := deliveryDestinations.getD (dest % deliveryDestinations.length) ""

theorem destination_mem (dest : Nat) : destination dest ∈ deliveryDestinations := by
  have hlt : dest % deliveryDestinations.length < deliveryDestinations.length := Nat.mod_lt _ (by decide)
  rw [destination, getD_eq_getElem _ _ hlt]
  exact getElem_mem hlt

theorem destinations_plain :
    ∀ name ∈ deliveryDestinations, (∀ c ∈ name.toList, isNameChar c) ∧ Unescaped name ∧ name.length ≤ 16 := by
  simp only [← all_eq_true]
  decide +kernel

theorem unescaped_stopText (dest id : Nat) : Unescaped (stopText (destination dest) id) := by
  intro c hc
  rw [toList_stopText] at hc
  rcases mem_append.mp hc with hc | hc
  · rcases mem_append.mp hc with hc | hc
    · exact (destinations_plain _ (destination_mem dest)).2.1 c hc
    · rw [mem_singleton.mp hc]
      rfl
  · exact escape_of_isDigit (Nat.isDigit_of_mem_toDigits (by decide) (by decide) hc)

theorem length_stopText_le (dest : Nat) (hid : id < 2 ^ 31) : (stopText (destination dest) id).length ≤ 27 := by
  have hname := (destinations_plain _ (destination_mem dest)).2.2
  have hdigits : (Nat.toDigits 10 id).length ≤ 10 := Nat.toDigits_length 10 id 10 (by decide) (by omega)
  have hlength : (stopText (destination dest) id).length =
      (destination dest).length + 1 + (Nat.toDigits 10 id).length := by
    rw [← String.length_toList, toList_stopText, length_append, length_append]
    rfl
  omega

theorem assignRoute_published {rank : String → Nat} {dest : Nat} {server : MqttClient.State} {topic json : String}
    (h : (assignRoute rank dest id server).1 = some (topic, json)) :
    "routes/".toList <+: topic.toList ∧ json = "[\"" ++ stopText (destination dest) id ++ "\"]" := by
  rw [assignRoute] at h
  cases hcourier : (inMapOrder rank server.couriers.rows)[server.rrIndex % server.couriers.rows.length]? with
  | none =>
    rw [hcourier] at h
    cases h
  | some courier =>
    simp only [hcourier, Option.some.injEq, Prod.mk.injEq] at h
    obtain ⟨rfl, rfl⟩ := h
    refine ⟨?_, rfl⟩
    rw [String.toList_append]
    exact prefix_append _ _

theorem stops_handlePublish (hparse : ReadsStops parse) (dest : Nat) (hid : id < 2 ^ 31) {topic : String}
    (htopic : "routes/".toList <+: topic.toList) {f : RouteState} (hspace : f.stops.length < cfg.routeMaxStops) :
    (handlePublish cfg parse topic ("[\"" ++ stopText (destination dest) id ++ "\"]") f).stops =
      f.stops ++ [safeStrcpy cfg.routeStopNameMax (stopText (destination dest) id)] := by
  have hlength : ("[\"" ++ stopText (destination dest) id ++ "\"]").length ≤ mqttBufferSize := by
    have hstop := length_stopText_le dest hid
    rw [String.length_append, String.length_append]
    change 2 + _ + 2 ≤ 1024
    omega
  have htake : String.ofList (("[\"" ++ stopText (destination dest) id ++ "\"]").toList.take mqttBufferSize) =
      "[\"" ++ stopText (destination dest) id ++ "\"]" := by
    rw [take_of_length_le (by rwa [String.length_toList]), String.ofList_toList]
  have hone : [(.string (stopText (destination dest) id) : Json)].take cfg.routeMaxStops =
      [.string (stopText (destination dest) id)] := take_of_length_le cfg.maxStops_range.1
  have hslot : [stopText (destination dest) id].take (cfg.routeMaxStops - f.stops.length) =
      [stopText (destination dest) id] := take_of_length_le (Nat.sub_pos_of_lt hspace)
  rw [handlePublish, if_pos htopic, htake, hparse.route _ (unescaped_stopText dest id), routeManagerParseJson, hone]
  · change f.stops ++ ([stopText (destination dest) id].take (cfg.routeMaxStops - f.stops.length)).map _ = _
    rw [hslot, map_singleton]
  · rintro ⟨⟩

theorem report_stored (hparse : ReadsStops parse) {s : RouteState} {stop : String}
    (hcurrent : getCurrentStop s = some stop) (hplain : Unescaped stop) (hlength : stop.length ≤ 27) :
    ∃ payload, (onDeliveredPressed true s).1 = some payload ∧ readPayload parse payload = .stop stop := by
  refine ⟨deliveredText stop, ?_, ?_⟩
  · have hfits : ¬ mqttPayloadSize ≤ (deliveredText stop).length := by
      rw [deliveredText, String.length_append, String.length_append]
      change ¬ 192 ≤ 9 + stop.length + 18
      omega
    simp only [onDeliveredPressed, pressDelivered, hcurrent, if_neg hfits, if_true]
  · rw [readPayload, hparse.delivered stop hplain]
    rfl

/-- A courier's report on a stop of the server completes its transaction or none exactly
when the firmware keeps no digit of its number or all of them. -/
theorem reports_name_transaction_iff (cfg : Config) (hparse : ReadsStops parse) (rank : String → Nat) (dest : Nat)
    (hid : id < 2 ^ 31) (server : MqttClient.State) {topic json : String}
    (hroute : (assignRoute rank dest id server).1 = some (topic, json)) (f : RouteState)
    (hspace : f.stops.length < cfg.routeMaxStops) (later : List Event) (hlater : ∀ event ∈ later, ¬ event.Clears parse)
    (hcurrent : (later.foldl (step cfg parse) (handlePublish cfg parse topic json f)).currentIndex = f.stops.length) :
    ∃ payload, (onDeliveredPressed true (later.foldl (step cfg parse) (handlePublish cfg parse topic json f))).1 =
        some payload ∧ (TouchesOnly id (readPayload parse payload) ↔
        cfg.routeStopNameMax ≤ (destination dest).length + 2 ∨
          (stopText (destination dest) id).length < cfg.routeStopNameMax) := by
  obtain ⟨htopic, rfl⟩ := assignRoute_published hroute
  have hstored := stops_handlePublish hparse dest hid htopic hspace
  have hstop := getCurrentStop_foldl hlater hstored hcurrent
  have hplain : Unescaped (safeStrcpy cfg.routeStopNameMax (stopText (destination dest) id)) := by
    intro c hc
    rw [safeStrcpy, String.toList_ofList] at hc
    exact unescaped_stopText dest id c (mem_of_mem_take hc)
  have hlength : (safeStrcpy cfg.routeStopNameMax (stopText (destination dest) id)).length ≤ 27 := by
    rw [safeStrcpy, String.length_ofList]
    refine Nat.le_trans (length_take_le' _ _) ?_
    rw [String.length_toList]
    exact length_stopText_le dest hid
  obtain ⟨payload, hpayload, hread⟩ := report_stored hparse hstop hplain hlength
  refine ⟨payload, hpayload, ?_⟩
  rw [touchesOnly_iff, hread]
  exact stopTransaction_stored _ (destinations_plain _ (destination_mem dest)).1 hid _

def between (start finish text : List Char) : Option (List Char) :=
  if start <+: text ∧ finish <:+ text then
    some ((text.drop start.length).take (text.length - start.length - finish.length))
  else none

theorem between_append (start middle finish : List Char) :
    between start finish (start ++ middle ++ finish) = some middle := by
  have hlength : (start ++ middle ++ finish).length - start.length - finish.length = middle.length := by
    simp only [length_append]
    omega
  rw [between, if_pos ⟨⟨middle ++ finish, (append_assoc ..).symm⟩, suffix_append _ _⟩, hlength,
    append_assoc, drop_left, take_left]

def stopReader (text : String) : Option Json :=
  match between "[\"".toList "\"]".toList text.toList with
  | some stop => some (.array [.string (String.ofList stop)])
  | none => (between "\x7b\"stop\":\"".toList "\",\"status\":\"done\"\x7d".toList text.toList).map fun stop =>
    .object [("stop", .string (String.ofList stop)), ("status", .string "done")]

theorem readsStops_stopReader : ReadsStops stopReader where
  route stop _ := by
    simp only [stopReader, String.toList_append, between_append, String.ofList_toList]
  delivered stop _ := by
    have hnone : between "[\"".toList "\"]".toList (deliveredText stop).toList = none := by
      rw [between, if_neg]
      rintro ⟨⟨rest, hrest⟩, -⟩
      rw [deliveredText, String.toList_append, String.toList_append] at hrest
      cases hrest
    rw [stopReader, hnone]
    simp only [deliveredText, String.toList_append, between_append, Option.map_some, String.ofList_toList]

def oneCourier : MqttClient.State := ⟨emptyDb, ⟨[⟨"courier_1", []⟩], nodup_singleton _⟩, 0, []⟩

def defaultBuild : Config := ⟨16, 64, by decide, by decide⟩

theorem defaultBuild_reports :
    ∃ payload, (onDeliveredPressed true (handlePublish defaultBuild stopReader "routes/courier_1"
      "[\"Mercado Sur 54\"]" routeManagerClear)).1 = some payload ∧
        TouchesOnly 54 (readPayload stopReader payload) := by
  obtain ⟨payload, hpayload, hiff⟩ := reports_name_transaction_iff defaultBuild readsStops_stopReader (fun _ => 0) 0
    (by decide : 54 < 2 ^ 31) oneCourier (by decide : _ = some ("routes/courier_1", "[\"Mercado Sur 54\"]"))
    routeManagerClear (by decide) [] (by simp) (by decide)
  exact ⟨payload, hpayload, hiff.mpr (.inr (by decide))⟩

def shortBuild : Config := ⟨16, 16, by decide, by decide⟩

/-- The report on transaction 12345 completes transaction 123. -/
theorem shortBuild_reports_other :
    (assignRoute (fun _ => 0) 0 12345 oneCourier).1 = some ("routes/courier_1", "[\"Mercado Sur 12345\"]") ∧
      ∃ payload, (onDeliveredPressed true
          (handlePublish shortBuild stopReader "routes/courier_1" "[\"Mercado Sur 12345\"]" routeManagerClear)).1 =
            some payload ∧ (readPayload stopReader payload).transactionId = some 123 ∧
          ¬ TouchesOnly 12345 (readPayload stopReader payload) := by
  refine ⟨by decide, deliveredText "Mercado Sur 123", by decide, by decide, ?_⟩
  rw [touchesOnly_iff]
  decide

end Logistics.RouteManager
