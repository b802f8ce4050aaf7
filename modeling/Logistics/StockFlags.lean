import Logistics.ClientThreads

namespace Logistics.ClientThreads

open JsonManager Client List Option

variable {cfg : AckConfig} {stamp : String} {c c' : Threads} {instr : Instr} {rest work : List Instr} {e : Event}
  {history history' : List Note} {msg : Message} {items : Items} {i : Fin 6}

def Contains (items : Items) (i : Fin 6) : Prop := ∃ j, (items j).itemId = (i.val : Int) + 1 ∧ 0 < (items j).quantity

instance : Decidable (Contains items i) := inferInstanceAs (Decidable (∃ _, _))

def Asks (msg : Message) (i : Fin 6) : Prop := isStockRequest msg.msgType ∧ Contains msg.items.items i

instance : Decidable (Asks msg i) := inferInstanceAs (Decidable (_ ∧ _))

/-- A request for the item has been enqueued, and no delivery that contains the item
has been handled since. -/
def Outstanding (history : List Note) (i : Fin 6) : Prop :=
  ∃ before msg after, history = before ++ .enqueued msg :: after ∧ Asks msg i ∧
    ∀ items, .delivered items ∈ after → ¬ Contains items i

theorem not_outstanding_nil : ¬ Outstanding [] i := by
  rintro ⟨before, msg, after, h, -⟩
  exact append_ne_nil_of_right_ne_nil _ (cons_ne_nil _ _) h.symm

theorem outstanding_concat {note : Note} : Outstanding (history ++ [note]) i ↔
    (∃ msg, note = .enqueued msg ∧ Asks msg i) ∨ Outstanding history i ∧ ∀ items, note = .delivered items →
    ¬ Contains items i := by
  constructor
  · rintro ⟨before, msg, after, h, hasks, hafter⟩
    rcases eq_nil_or_concat after with rfl | ⟨rest, last, rfl⟩
    · obtain ⟨-, hnote⟩ := append_inj' h rfl
      exact .inl ⟨msg, singleton_inj.mp hnote, hasks⟩
    · rw [concat_eq_append] at h hafter
      rw [← cons_append, ← append_assoc] at h
      obtain ⟨rfl, hnote⟩ := append_inj' h rfl
      cases singleton_inj.mp hnote
      refine .inr ⟨⟨before, msg, rest, rfl, hasks, fun items hmem => hafter items (mem_append_left _ hmem)⟩, ?_⟩
      rintro items rfl
      exact hafter items (mem_append_right _ mem_cons_self)
  · rintro (⟨msg, rfl, hasks⟩ | ⟨⟨before, msg, after, rfl, hasks, hafter⟩, hnote⟩)
    · exact ⟨history, msg, [], rfl, hasks, fun items hmem => absurd hmem not_mem_nil⟩
    · refine ⟨before, msg, after ++ [note], by rw [append_assoc, cons_append], hasks, fun items hmem => ?_⟩
      rcases mem_append.mp hmem with hold | hnew
      · exact hafter items hold
      · exact hnote items (mem_singleton.mp hnew).symm

theorem Outstanding.enqueued (h : Outstanding history i) (msg : Message) : Outstanding (history ++ [.enqueued msg]) i :=
  outstanding_concat.mpr (.inr ⟨h, by rintro items ⟨⟩⟩)

theorem Outstanding.delivered (h : Outstanding history i) (hitems : ¬ Contains items i) :
    Outstanding (history ++ [.delivered items]) i :=
  outstanding_concat.mpr (.inr ⟨h, by rintro _ ⟨⟩; exact hitems⟩)

def noted (i : Fin 6) (pending : Bool) : Note → Bool
  | .enqueued msg => decide (Asks msg i) || pending
  | .delivered items => pending && !decide (Contains items i)

theorem outstanding_iff_foldl : history.foldl (noted i) false = true ↔ Outstanding history i := by
  induction history using List.reverseRecOn with
  | nil => exact iff_of_false Bool.false_ne_true not_outstanding_nil
  | append_singleton history note ih =>
    rw [outstanding_concat, ← ih]
    cases note with
    | enqueued msg => simp [noted]
    | delivered items => simp [noted]

instance : Decidable (Outstanding history i) := decidable_of_iff _ outstanding_iff_foldl

inductive Armed (history : List Note) : List Instr → Prop
  | fresh {work : List Instr} (h : Fresh work) : Armed history work
  | asks {msgType : MsgType} {low : List Item} {indices : List (Fin 6)} {rest : List Instr}
      (htype : isStockRequest msgType) (hlow : ∀ i ∈ indices, Contains (buildFullRequestPayload low) i)
      (h : Fresh rest) : Armed history (.post (.stockRequest msgType low) :: .mark indices :: rest)
  | marks {indices : List (Fin 6)} {rest : List Instr} (hout : ∀ i ∈ indices, Outstanding history i)
      (h : Fresh rest) : Armed history (.mark indices :: rest)

theorem Armed.mono (h : Armed history work) (hkeep : ∀ indices rest, work = .mark indices :: rest → ∀ i ∈ indices,
      Outstanding history i → Outstanding history' i) : Armed history' work := by
  cases h with
  | fresh h => exact .fresh h
  | asks htype hlow h => exact .asks htype hlow h
  | marks hout h => exact .marks (fun i hi => hkeep _ _ rfl i hi (hout i hi)) h

theorem Fresh.tail (h : Fresh (instr :: rest)) : Fresh rest :=
  ⟨fun indices hmem => h.mark indices (mem_cons_of_mem _ hmem),
    fun msgType hmem => h.report msgType (mem_cons_of_mem _ hmem)⟩

theorem Fresh.cons (h : Fresh rest) (hmark : ∀ indices, instr ≠ .mark indices)
    (hreport : ∀ msgType, instr ≠ .report msgType) : Fresh (instr :: rest) := by
  constructor
  · intro indices hmem
    rcases mem_cons.mp hmem with heq | hmem
    · exact hmark indices heq.symm
    · exact h.mark indices hmem
  · intro msgType hmem
    rcases mem_cons.mp hmem with heq | hmem
    · exact absurd heq.symm (hreport msgType)
    · exact h.report msgType hmem

open Reachability

theorem contains_low (hcfg : cfg.lowStockThreshold ≤ cfg.maxStockPerItem) (st : SharedData)
    (hi : i ∈ (st.getLowStockReport cfg.toTimerConfig).map Prod.snd) :
    Contains (buildFullRequestPayload ((st.getLowStockReport cfg.toTimerConfig).map Prod.fst)) i := by
  rw [SharedData.getLowStockReport, List.map_map] at hi ⊢
  obtain ⟨j, hj, rfl⟩ := mem_map.mp hi
  refine ⟨j, rfl, ?_⟩
  have hlow := of_decide_eq_true (mem_filter.mp hj).2
  have hquantity : (buildFullRequestPayload (((finRange 6).filter fun i =>
      decide (st.inventoryItem i < cfg.lowStockThreshold ∧ st.pendingStockRequest i = false)).map
        fun i => (⟨(i.val : Int) + 1, itemNames i, max 0 (cfg.maxStockPerItem - st.inventoryItem i)⟩ : Item)) j).quantity =
      max 0 (cfg.maxStockPerItem - st.inventoryItem j) := by
    rw [buildFullRequestPayload, foldl_setQuantity_map, if_pos hj]
  refine lt_of_lt_of_eq ?_ hquantity.symm
  omega

theorem asks_of_post {msgType : MsgType} {low : List Item} (htype : isStockRequest msgType)
    (hpost : c.post (.stockRequest msgType low) stamp = some c') (hi : Contains (buildFullRequestPayload low) i) :
    Outstanding c'.history i := by
  obtain ⟨msg, hmsg, hmap⟩ := bind_eq_some_iff.mp hpost
  obtain ⟨m, -, rfl⟩ := map_eq_some_iff.mp hmap
  obtain ⟨roles, -, rfl⟩ := map_eq_some_iff.mp hmsg
  exact outstanding_concat.mpr (.inl ⟨_, rfl, htype, by rwa [firstItems_of_le le_rfl]⟩)

theorem flag_clear (st : SharedData) (items : Items) (i : Fin 6) :
    (st.clearPendingStockRequests items).pendingStockRequest i = true ↔
      st.pendingStockRequest i = true ∧ ¬ Contains items i := by
  change (st.pendingStockRequest i && (ofFn items).all
    fun item => decide (item.quantity ≤ 0 ∨ item.itemId ≠ (i.val : Int) + 1)) = true ↔ _
  rw [Bool.and_eq_true, List.all_eq_true, forall_mem_ofFn_iff]
  refine and_congr_right fun _ => ⟨?_, ?_⟩
  · rintro h ⟨j, hid, hquantity⟩
    rcases of_decide_eq_true (h j) with hle | hne
    · omega
    · exact hne hid
  · intro h j
    refine decide_eq_true ?_
    by_contra hboth
    rw [not_or, not_not] at hboth
    exact h ⟨j, hboth.2, not_le.mp hboth.1⟩

theorem flag_mark (st : SharedData) (indices : List (Fin 6)) (i : Fin 6) :
    (st.markPendingStockRequests indices).pendingStockRequest i = true ↔
      st.pendingStockRequest i = true ∨ i ∈ indices := by
  change (st.pendingStockRequest i || indices.contains i) = true ↔ _
  rw [Bool.or_eq_true, contains_iff_mem]

def Flagged (c : Threads) : Prop := ∀ i, c.memory.data.pendingStockRequest i = true → Outstanding c.history i

theorem flagged_post {letter : Letter} (hflags : Flagged c) (hpost : c.post letter stamp = some c') : Flagged c' := by
  obtain ⟨msg, -, hmap⟩ := bind_eq_some_iff.mp hpost
  obtain ⟨m, hm, rfl⟩ := map_eq_some_iff.mp hmap
  intro i hi
  rw [(Memory.of_enqueuePendingMessage hm).2.2] at hi
  exact (hflags i hi).enqueued msg

theorem armed_exec (stamp : String) (hcfg : cfg.lowStockThreshold ≤ cfg.maxStockPerItem)
    (harmed : Armed c.history (instr :: rest)) (hflags : Flagged c) :
    Armed (instr.exec cfg stamp c rest).1.history (instr.exec cfg stamp c rest).2 ∧
      Flagged (instr.exec cfg stamp c rest).1 := by
  cases harmed with
  | asks htype hlow hrest =>
    rename_i msgType low indices rest
    rw [Instr.exec]
    cases hpost : c.post (.stockRequest msgType low) stamp with
    | none => exact ⟨.fresh fresh_nil, hflags⟩
    | some c' => exact ⟨.marks (fun i hi => asks_of_post htype hpost (hlow i hi)) hrest, flagged_post hflags hpost⟩
  | marks hout hrest =>
    refine ⟨.fresh hrest, fun i hi => ?_⟩
    rcases (flag_mark c.memory.data _ i).mp hi with hold | hnew
    · exact hflags i hold
    · exact hout i hnew
  | fresh h =>
    cases instr with
    | post letter =>
      rw [Instr.exec]
      cases hpost : c.post letter stamp with
      | none => exact ⟨.fresh fresh_nil, hflags⟩
      | some c' => exact ⟨.fresh h.tail, flagged_post hflags hpost⟩
    | modify | raise => exact ⟨.fresh h.tail, hflags⟩
    | remove acked =>
      refine ⟨.fresh h.tail, fun i hi => hflags i ?_⟩
      rwa [← (Memory.apart_removePendingAck c.memory acked.message.timestamp).flags]
    | clear items =>
      refine ⟨.fresh h.tail, fun i hi => ?_⟩
      obtain ⟨hflag, hnot⟩ := (flag_clear c.memory.data items i).mp hi
      exact (hflags i hflag).delivered hnot
    | report msgType =>
      refine ⟨?_, hflags⟩
      rw [Instr.exec]
      split
      · exact .fresh h.tail
      · exact .asks (h.report msgType mem_cons_self) (fun i hi => contains_low hcfg _ hi) h.tail
    | mark indices => exact absurd mem_cons_self (h.mark indices)
    | snapshot => exact ⟨.fresh (h.tail.cons (by rintro _ ⟨⟩) (by rintro _ ⟨⟩)), hflags⟩
    | survey amounts =>
      refine ⟨?_, hflags⟩
      rw [Instr.exec]
      split
      · exact .fresh (h.tail.cons (by rintro _ ⟨⟩) (by rintro _ ⟨⟩))
      · exact .fresh h.tail
    | alarm =>
      refine ⟨?_, hflags⟩
      rw [Instr.exec]
      split
      · exact .fresh fresh_nil
      · exact .fresh ((h.tail.cons (by rintro _ ⟨⟩) (by rintro _ ⟨⟩)).cons (by rintro _ ⟨⟩) (by rintro _ ⟨⟩))

theorem armed_other {work : List Instr} (harmed : Armed c.history work)
    (hclear : ∀ items, instr = .clear items → ∀ indices rest, work = .mark indices :: rest →
      ∀ i ∈ indices, ¬ Contains items i) : Armed (instr.exec cfg stamp c rest).1.history work := by
  cases instr with
  | post letter =>
    rw [Instr.exec]
    cases hpost : c.post letter stamp with
    | none => exact harmed
    | some c' =>
      obtain ⟨msg, -, hmap⟩ := bind_eq_some_iff.mp hpost
      obtain ⟨m, -, rfl⟩ := map_eq_some_iff.mp hmap
      exact harmed.mono fun _ _ _ i _ hout => hout.enqueued msg
  | clear items =>
    exact harmed.mono fun indices rest hwork i hi hout => hout.delivered (hclear items rfl indices rest hwork i hi)
  | modify | report | mark | remove | snapshot | survey | alarm | raise => exact harmed

structure Covered (c : Threads) : Prop where
  flags : Flagged c
  receiver : Armed c.history c.receiver
  child : Armed c.history c.child
  clear : ∀ items, .clear items ∉ c.child

def Event.isReceiver : Event → Bool
  | .receiver _ => true
  | _ => false

def clearing : List Instr → Option Items
  | .clear items :: _ => some items
  | _ => none

def marking : List Instr → List (Fin 6)
  | .mark indices :: _ => indices
  | _ => []

/-- The receiver does not clear the flag of an item between the request of the child
for it and its mark. -/
def NoRacingDelivery (c : Threads) (e : Event) : Prop :=
  e.isReceiver → ∀ items ∈ clearing c.receiver, ∀ i ∈ marking c.child, ¬ Contains items i

instance : Decidable (NoRacingDelivery c e) := inferInstanceAs (Decidable (_ → _))

theorem Covered.of_memory (hc : Covered c) {m : Memory}
    (hflags : m.data.pendingStockRequest = c.memory.data.pendingStockRequest) : Flagged { c with memory := m } := by
  intro i hi
  rw [hflags] at hi
  exact hc.flags i hi

theorem Turn.covered (hcfg : cfg.lowStockThreshold ≤ cfg.maxStockPerItem) (h : Turn cfg c e c') (hc : Covered c)
    (hrace : NoRacingDelivery c e) : Covered c' := by
  cases h with
  | idle => exact hc
  | receives _ hfresh => exact ⟨hc.flags, .fresh hfresh, hc.child, hc.clear⟩
  | wakes _ hclear hfresh => exact ⟨hc.flags, hc.receiver, .fresh hfresh, hclear⟩
  | @receiver stamp instr rest hr =>
    obtain ⟨harmed, hflags⟩ := armed_exec stamp hcfg (hr ▸ hc.receiver) hc.flags
    have hframe := (effect_exec cfg stamp c rest instr).frame
    have hchild : (instr.exec cfg stamp c rest).1.child = c.child := by rw [hframe]
    refine ⟨hflags, harmed, ?_, ?_⟩
    · refine hchild.symm ▸ armed_other hc.child fun items hi indices rest' hwork i hmem => ?_
      refine hrace rfl items ?_ i ?_
      · rw [hr, hi]
        rfl
      · rw [hwork]
        exact hmem
    · exact hchild.symm ▸ hc.clear
  | @child stamp instr rest hr =>
    obtain ⟨harmed, hflags⟩ := armed_exec stamp hcfg (hr ▸ hc.child) hc.flags
    have hframe := (effect_exec cfg stamp c rest instr).frame
    have hreceiver : (instr.exec cfg stamp c rest).1.receiver = c.receiver := by rw [hframe]
    refine ⟨hflags, ?_, harmed, ?_⟩
    · refine hreceiver.symm ▸ armed_other hc.receiver fun items hi => ?_
      exact absurd (hr ▸ hi ▸ mem_cons_self) (hc.clear items)
    · intro items hmem
      exact hc.clear items (hr ▸ mem_cons_of_mem _ ((mem_rest hmem).resolve_right id))
  | pop => exact ⟨hc.of_memory rfl, hc.receiver, hc.child, hc.clear⟩
  | send | collect | requeued => exact ⟨hc.flags, hc.receiver, hc.child, hc.clear⟩
  | track => exact ⟨hc.of_memory (Memory.apart_addPendingAck _ _ _).flags, hc.receiver, hc.child, hc.clear⟩
  | check => exact ⟨hc.of_memory (Memory.checkSlots_spec _ _ _ _ _).1.flags, hc.receiver, hc.child, hc.clear⟩
  | @requeue u =>
    refine ⟨hc.of_memory ?_, hc.receiver, hc.child, hc.clear⟩
    cases henq : c.memory.enqueuePendingMessage u with
    | none => rfl
    | some m => exact (Memory.of_enqueuePendingMessage henq).2.2

theorem covered_start (clientRole clientId : String) : Covered (start clientRole clientId) where
  flags := by
    intro i hi
    cases hi
  receiver := .fresh fresh_nil
  child := .fresh fresh_nil
  clear := fun _ => not_mem_nil

/-- If a request always asks for more than nothing and no delivery overtakes a mark,
every flag stands for an outstanding request, and an item that runs low without one is
reported. -/
theorem flag_outstanding (cfg : AckConfig) (hcfg : cfg.lowStockThreshold ≤ cfg.maxStockPerItem)
    (clientRole clientId : String) (events : List Event)
    (hrace : Along (step cfg) NoRacingDelivery (start clientRole clientId) events) (i : Fin 6) :
    let c := events.foldl (step cfg) (start clientRole clientId)
    (c.memory.data.pendingStockRequest i = true → Outstanding c.history i) ∧
      (c.memory.data.inventoryItem i < cfg.lowStockThreshold → ¬ Outstanding c.history i →
        i ∈ (c.memory.data.getLowStockReport cfg.toTimerConfig).map Prod.snd) := by
  intro c
  have hc : Covered c :=
    hrace.invariant (fun c e hc hr => (turn_step cfg c e).covered hcfg hc hr) (covered_start clientRole clientId)
  refine ⟨hc.flags i, fun hlow hnot => ?_⟩
  have hflag : c.memory.data.pendingStockRequest i = false := by
    rw [← Bool.not_eq_true]
    exact fun h => hnot (hc.flags i h)
  refine mem_map.mpr ⟨_, mem_map.mpr ⟨i, ?_, rfl⟩, rfl⟩
  exact mem_filter.mpr ⟨mem_finRange i, decide_eq_true ⟨hlow, hflag⟩⟩

def stock (quantity : Int) : Payload := .items ⟨fun i => ⟨(i.val : Int) + 1, itemNames i, quantity⟩, ""⟩

def incoming : Message :=
  createMessage .serverToHubIncomingStockNotice server server hub "hub_1" (stock 100) "2025-11-03T10:15:31.000Z"

def markThenDelivery : List Event :=
  [.timer (.consume 0), .child "", .child "", .child "2025-11-03T10:15:30.000Z", .child "", .receive incoming,
    .receiver "2025-11-03T10:15:31.200Z", .receiver "", .receiver "", .receiver "2025-11-03T10:15:31.500Z"]

def afterDelivery : Threads := markThenDelivery.foldl (step ⟨⟨20, 100⟩, 5000, 3⟩) (start hub "hub_1")

theorem mark_then_delivery :
    (afterDelivery.memory.data.pendingStockRequest 0 = true → Outstanding afterDelivery.history 0) ∧
      (afterDelivery.memory.data.inventoryItem 0 < 20 → ¬ Outstanding afterDelivery.history 0 →
        0 ∈ (afterDelivery.memory.data.getLowStockReport ⟨20, 100⟩).map Prod.snd) := by
  refine flag_outstanding ⟨⟨20, 100⟩, 5000, 3⟩ (by decide) hub "hub_1" markThenDelivery ?_ 0
  decide +kernel

def deliveryThenMark : List Event :=
  [.timer (.consume 0), .child "", .child "", .child "2025-11-03T10:15:30.000Z", .receive incoming,
    .receiver "2025-11-03T10:15:31.200Z", .receiver "", .receiver "", .child "", .receiver "2025-11-03T10:15:31.500Z",
    .timer (.consume fun _ => 90), .child "", .child "", .child ""]

def initialInventory : Message :=
  createMessage .serverToHubInventoryUpdate server server hub "hub_1" (stock 15) "2025-11-03T10:15:29.000Z"

def emptyRequest : List Event :=
  [.receive initialInventory, .receiver "", .receiver "2025-11-03T10:15:29.100Z", .timer (.consume 0), .child "",
    .child "", .child "", .child "2025-11-03T10:15:30.000Z", .child ""]

theorem flag_without_request :
    (let c := deliveryThenMark.foldl (step ⟨⟨20, 100⟩, 5000, 3⟩) (start hub "hub_1");
      c.memory.data.pendingStockRequest 0 = true ∧ ¬ Outstanding c.history 0 ∧ c.memory.data.inventoryItem 0 < 20 ∧
        c.memory.data.getLowStockReport ⟨20, 100⟩ = []) ∧
    (let c := emptyRequest.foldl (step ⟨⟨20, 10⟩, 5000, 3⟩) (start hub "hub_1");
      c.memory.data.pendingStockRequest 0 = true ∧ ¬ Outstanding c.history 0 ∧ c.memory.data.inventoryItem 0 < 20) := by
  decide +kernel

end Logistics.ClientThreads
