import Logistics.ReplenishmentCycle

namespace Logistics.ReplenishmentCycle

open JsonManager Database InventoryManager InventorySpec PendingSpec MessageHandler Option
open OrderMatching Client ClampedStock Scenario

variable {msg incoming : Message} {db d : Db} {x : Course} {q : Quantities} {w w' : World}

theorem pendingGatewayOrders_inventory {a : Attempt} {stamp : Nat → String}
    (h : (stockRow db msg.sourceId).isSome) : (pendingGatewayOrders a stamp msg db).2.inventory = db.inventory := by
  obtain ⟨row, hrow⟩ : ∃ row, db.inventory.find? msg.sourceId = some row := by
    rw [stockRow, isSome_map] at h
    exact isSome_iff_exists.mp h
  simp only [pendingGatewayOrders]
  split
  · refine perform_induct (P := fun d => d.inventory = db.inventory) a _ db (fun _ => rfl) fun r db' hc => ?_
    obtain ⟨-, rfl⟩ := commits_processPendingGatewayOrders_eq_some hc
    rw [assignEach_inventory, ensureInventory, hrow]
  · rfl

theorem receiptLeg_spec (hname : w.hubClient.clientId.length < idSize) (hrole : w.hubClient.clientRole = hub)
    (hfault : (x.confirmed.attempt 0).fault = none)
    (htimestamp : (x.confirmed.attempt 0).env.parseTimestamp (x.hubStamp 1) ≠ none)
    (hmt : incoming.msgType = .serverToHubIncomingStockNotice) (hcarries : Carries incoming.items.items q)
    (hne : w.hubClient.clientId ≠ "")
    (hopen : ∃ t ∈ w.db.transactions.rows, t.status = .dispatched ∧ t.destinationId = w.hubClient.clientId)
    (hadjust : w.db.adjustInventory w.hubClient.clientId q true (x.confirmed.attempt 0).env.now = some d)
    (hrow : (stockRow d w.hubClient.clientId).isSome) (h : receiptLeg x incoming w = some w') :
    w'.warehouseClient = w.warehouseClient ∧ w'.hubClient.clientId = w.hubClient.clientId ∧
      (∀ i, w'.hubClient.inventoryItem i = w.hubClient.inventoryItem i + (entries incoming.items.items i).sum) ∧
      w'.db.inventory = d.inventory := by
  obtain ⟨reply, hreply, htype, hsource, hts, hitems⟩ := createItemsMessage_delivered
    (show prefixRoles MsgType.hubToServerStockReceiptConfirmation.text = some (hub, server) by decide) hname server
    incoming.items.items (some incoming.items.orderTimestamp) (x.hubStamp 1)
  have hread : extractQuantities reply.delivered.items.items = q := by
    rw [hitems, extractQuantities_transmitted, hcarries.quantities]
  have hanswer : receiptConfirmation w.hubClient.clientRole w.hubClient.clientId incoming (x.hubStamp 1) =
      some reply := by
    rw [hrole]
    exact hreply
  rw [receiptLeg, handleServerMessage_delivery (.inr hmt), hanswer] at h
  obtain ⟨receipt, hreceipt, he⟩ := map_eq_some_iff.mp h
  cases he
  obtain ⟨rfl, hinventory, hclient⟩ := answerAfter_sent (local_delivery incoming.items.items) (by decide) htype
    (fun st => ⟨[], by simp, rfl, rfl⟩) hreceipt
  refine ⟨rfl, hclient, fun i => congrFun hinventory i, ?_⟩
  obtain ⟨ts, hparse⟩ := ne_none_iff_exists'.mp htimestamp
  obtain ⟨t, ht, hst, hdest⟩ := hopen
  have hfound : w.db.findNewest (x.confirmed.attempt 0).env "" w.hubClient.clientId .dispatched ≠ none := by
    intro hnone
    exact findNewest_eq_none.mp hnone t ht ⟨.inl rfl, .inr hdest, hst⟩
  obtain ⟨id, hid⟩ := ne_none_iff_exists'.mp hfound
  have hcommits : commits (x.confirmed.attempt 0).env (handleReceiptConfirmation receipt.delivered) w.db =
      some (0, d.setCompleted id ts) := by
    rw [commits_handleReceiptConfirmation, settling_eq_some, hsource, hread, hts]
    exact ⟨hne, id, d, ts, hid, hadjust, hparse, rfl⟩
  simp only [handleOtherMessage, delivered_msgType, htype, categorizeMessage, perform_of_commits hfault hcommits]
  rw [pendingGatewayOrders_inventory]
  · rfl
  · rw [hsource]
    exact hrow

theorem Carries.sum_entries {items : Items} (h : Carries items q) (i : Fin 6) : (Client.entries items i).sum = q i := by
  rw [h.entries]
  split
  · next hq => rw [hq, List.sum_nil]
  · rw [List.sum_singleton]

theorem Carries.withdrawAll_entries {items : Items} (h : Carries items q) {stock : Int} {i : Fin 6}
    (hle : q i ≤ stock) : withdrawAll stock (Client.entries items i) = stock - q i := by
  rw [h.entries]
  split
  · next hq => rw [hq, sub_zero]; rfl
  · change max 0 (stock - q i) = _
    omega

structure Moved (q : Quantities) (w w' : World) : Prop where
  hubId : w'.hubClient.clientId = w.hubClient.clientId
  warehouseId : w'.warehouseClient.clientId = w.warehouseClient.clientId
  hub : w'.hubClient.inventoryItem = fun i => w.hubClient.inventoryItem i + q i
  warehouse : w'.warehouseClient.inventoryItem = fun i => w.warehouseClient.inventoryItem i - q i
  hubRow : stockRow w'.db w.hubClient.clientId = some fun i => max 0 (w.hubClient.inventoryItem i - q i) + q i
  warehouseRow : stockRow w'.db w.warehouseClient.clientId = some fun i => w.warehouseClient.inventoryItem i - q i

theorem moved_cycle (hs : Setting q w) (hx : Smooth x q w) (h : cycle x q w = some w') : Moved q w w' := by
  obtain ⟨⟨order, w₁⟩, h₁, h⟩ := bind_eq_some_iff.mp h
  obtain ⟨⟨incoming, w₂⟩, h₂, h₃⟩ := bind_eq_some_iff.mp h
  obtain ⟨hmt₁, hc₁, hhub₁, hwh₁, d₁, hd₁, hi₁⟩ := requestLeg_spec hs hx.requested h₁
  have hnames : w₁.hubClient.clientId.length < idSize ∧ w₁.warehouseClient.clientId.length < idSize := by
    rw [hhub₁, hwh₁]
    exact ⟨hs.hubName, hs.warehouseName⟩
  obtain ⟨hmt₂, hc₂, hhub₂, hwh₂, hinv₂, ⟨d₂, hd₂, hi₂⟩, hne, hopen⟩ :=
    shipmentLeg_spec hnames hs.nonneg hx.shipped hmt₁ hc₁ h₂
  rw [hhub₁] at hhub₂ hne hopen
  rw [hwh₁] at hwh₂ hinv₂ hd₂
  have hubRow₂ : stockRow w₂.db w.hubClient.clientId =
      some fun i => max 0 (w.hubClient.inventoryItem i - q i) := by
    rw [stockRow_congr hi₂, stockRow_adjust hd₂, if_neg hs.distinct, stockRow_congr hi₁, stockRow_adjust hd₁,
      if_pos rfl, hs.agrees.hub]
    rfl
  have warehouseRow₂ : stockRow w₂.db w.warehouseClient.clientId =
      some fun i => w.warehouseClient.inventoryItem i - q i := by
    rw [stockRow_congr hi₂, stockRow_adjust hd₂, if_pos rfl, stockRow_congr hi₁, stockRow_adjust hd₁,
      if_neg (Ne.symm hs.distinct), hs.agrees.warehouse, map_some]
    refine congrArg some (funext fun i => ?_)
    have hle := hs.inStock i
    change max 0 (w.warehouseClient.inventoryItem i - q i) = _
    omega
  have hfits : w₂.db.adjustInventory w.hubClient.clientId q true (x.confirmed.attempt 0).env.now ≠ none := by
    rw [Db.adjustInventory, if_pos]
    · simp
    · intro r hr i
      have hstock : r.stock = fun i => max 0 (w.hubClient.inventoryItem i - q i) := by
        rw [stockRow, show w₂.db.inventory.find? _ = some r from hr] at hubRow₂
        exact some_injective _ hubRow₂
      rw [hstock]
      exact hx.fits i
  obtain ⟨d₃, hd₃⟩ := ne_none_iff_exists'.mp hfits
  have hubRow₃ : stockRow d₃ w.hubClient.clientId =
      some fun i => max 0 (w.hubClient.inventoryItem i - q i) + q i := by
    rw [stockRow_adjust hd₃, if_pos rfl, hubRow₂]
    rfl
  obtain ⟨hwh₃, hhub₃, hinv₃, hi₃⟩ := receiptLeg_spec (d := d₃) (by rw [hhub₂]; exact hs.hubName)
    (by rw [hhub₂]; exact hs.hubRole) hx.confirmed hx.timestamp hmt₂ hc₂ (by rw [hhub₂]; exact hne)
    (by rw [hhub₂]; exact hopen) (by rw [hhub₂]; exact hd₃) (by rw [hhub₂, hubRow₃]; rfl) h₃
  refine ⟨?_, ?_, ?_, ?_, ?_, ?_⟩
  · rw [hhub₃, hhub₂]
  · rw [hwh₃, hwh₂]
  · funext i
    rw [hinv₃, hhub₂, hc₂.sum_entries]
  · funext i
    rw [hwh₃, hinv₂, hc₁.withdrawAll_entries (hs.inStock i)]
  · rw [stockRow_congr hi₃, hubRow₃]
  · rw [stockRow_congr hi₃, stockRow_adjust hd₃, if_neg (Ne.symm hs.distinct), warehouseRow₂]

/-- Both copies of the stock agree after a cycle, and no stock is lost, exactly
when taking the request off the row of the hub in advance has no effect. -/
theorem cycle_agrees_iff (x : Course) (q : Quantities) (w w' : World) (hs : Setting q w) (hx : Smooth x q w)
    (h : cycle x q w = some w') : Agrees w' ∧ total w' = total w ↔
      ∀ i, (q i = 0 ∧ 0 ≤ w.hubClient.inventoryItem i) ∨ w.hubClient.inventoryItem i = 0 := by
  have hm := moved_cycle hs hx h
  have hiff (i : Fin 6) : max 0 (w.hubClient.inventoryItem i - q i) = w.hubClient.inventoryItem i ↔
      (q i = 0 ∧ 0 ≤ w.hubClient.inventoryItem i) ∨ w.hubClient.inventoryItem i = 0 := by
    have hq := hs.nonneg i
    omega
  constructor
  · rintro ⟨hagrees, -⟩ i
    have hhub := hagrees.hub
    rw [hm.hubId, hm.hubRow, hm.hub] at hhub
    have hi := congrFun (some_injective _ hhub) i
    rw [← hiff i]
    omega
  · intro hcond
    have hrow (i : Fin 6) := (hiff i).mpr (hcond i)
    refine ⟨⟨?_, ?_⟩, ?_⟩
    · rw [hm.hubId, hm.hubRow, hm.hub]
      simp only [hrow]
    · rw [hm.warehouseId, hm.warehouseRow, hm.warehouse]
    · funext i
      rw [total, total, hm.hubId, hm.warehouseId, hm.hubRow, hm.warehouseRow, hs.agrees.hub, hs.agrees.warehouse]
      simp only [getD_some, Pi.add_apply, hrow]
      omega

def plainCourse : Course :=
  ⟨plainOracle, plainOracle, plainOracle, "tcp_1", "tcp_2", ⟨0, 100⟩, "2026-01-01", fun _ => "2026-01-02",
    fun _ => "2026-01-03"⟩

def pairOf (hubStock : Int) : World where
  db := { emptyDb with
    inventory := ⟨[⟨"hub_1", hub, fun _ => hubStock, 0⟩, ⟨"wh_1", warehouse, fun _ => 50, 0⟩], by simp⟩ }
  hubClient := idleClient hub "hub_1" fun _ => hubStock
  warehouseClient := idleClient warehouse "wh_1" fun _ => 50

def five : Quantities := fun i => if i = 0 then 5 else 0

theorem setting_pairOf (hubStock : Int) : Setting five (pairOf hubStock) := by
  refine ⟨⟨rfl, rfl⟩, rfl, ?_, ?_, ?_, by decide, ?_⟩
  · exact show "hub_1".length < idSize by decide
  · exact show "wh_1".length < idSize by decide
  · exact show "hub_1" ≠ "wh_1" by decide
  · exact show ∀ i, five i ≤ 50 by decide

theorem smooth_pairOf (hubStock : Int) (hpos : 0 ≤ hubStock) (hle : hubStock ≤ 100) :
    Smooth plainCourse five (pairOf hubStock) := by
  refine ⟨rfl, rfl, rfl, by decide, fun i => ?_⟩
  change inInteger (max 0 (hubStock - five i) + five i)
  simp only [five, inInteger]
  split <;> omega

theorem cycle_agrees_empty : Agrees ((cycle plainCourse five (pairOf 0)).get (by decide)) ∧
    total ((cycle plainCourse five (pairOf 0)).get (by decide)) = total (pairOf 0) :=
  (cycle_agrees_iff plainCourse five (pairOf 0) _ (setting_pairOf 0) (smooth_pairOf 0 (by decide) (by decide))
    (some_get _).symm).mpr fun _ => .inr rfl

theorem cycle_disagrees : Setting five (pairOf 10) ∧ Smooth plainCourse five (pairOf 10) ∧
    ∃ w ∈ cycle plainCourse five (pairOf 10), ¬ (Agrees w ∧ total w = total (pairOf 10)) := by
  have hs := setting_pairOf 10
  have hx := smooth_pairOf 10 (by decide) (by decide)
  have hsome : (cycle plainCourse five (pairOf 10)).isSome := by decide +kernel
  obtain ⟨w, hw⟩ := isSome_iff_exists.mp hsome
  refine ⟨hs, hx, w, hw, ?_⟩
  rintro ⟨hagrees, -⟩
  have hhub := hagrees.hub
  have hm := moved_cycle hs hx hw
  rw [hm.hubId, hm.hubRow, hm.hub] at hhub
  exact absurd (congrFun (some_injective _ hhub) 0) (by decide)

end Logistics.ReplenishmentCycle
