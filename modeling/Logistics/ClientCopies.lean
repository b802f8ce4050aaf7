import Logistics.ClientThreads

namespace Logistics.ClientThreads

open JsonManager Client List

variable {cfg : AckConfig} {m m' : Memory} {c c' : Threads} {instr : Instr} {e : Event} {t u : Tagged}

namespace Memory

def Holds (m : Memory) (t : Tagged) : Prop := t ∈ m.queue ∨ ∃ i, m.keeps i = some t

theorem Holds.of_enqueue (h : m.enqueuePendingMessage u = some m') (ht : m'.Holds t) : m.Holds t ∨ t = u := by
  obtain ⟨hqueue, hacks, -⟩ := of_enqueuePendingMessage h
  rcases ht with hmem | ⟨i, hi⟩
  · rw [hqueue] at hmem
    rcases mem_append.mp hmem with hold | hnew
    · exact .inl (.inl hold)
    · exact .inr (mem_singleton.mp hnew)
  · rw [keeps, hacks] at hi
    exact .inl (.inr ⟨i, hi⟩)

theorem Holds.of_remove {msgId : String} (ht : (m.removePendingAck msgId).Holds t) : m.Holds t := by
  rcases ht with hmem | ⟨i, hi⟩
  · exact .inl ((apart_removePendingAck m msgId).queue ▸ hmem)
  · rw [keeps_removePendingAck] at hi
    split at hi
    · cases hi
    · exact .inr ⟨i, hi⟩

theorem Holds.of_add {now : Nat} (ht : (m.addPendingAck now u).Holds t) : m.Holds t ∨ t = u := by
  rcases ht with hmem | ⟨i, hi⟩
  · exact .inl (.inl ((apart_addPendingAck m now u).queue ▸ hmem))
  · rcases keeps_addPendingAck m now u i with hkeep | ⟨-, hnew⟩
    · exact .inl (.inr ⟨i, hkeep ▸ hi⟩)
    · exact .inr (Option.some.inj (hi.symm.trans hnew))

theorem Holds.of_check {now : Nat} (ht : (m.checkAckTimeouts cfg now).2.Holds t) : m.Holds t := by
  obtain ⟨hapart, hkeeps⟩ := checkSlots_spec cfg now (finRange maxPendingAcks) 0 m
  rcases ht with hmem | ⟨i, hi⟩
  · exact .inl (hapart.queue ▸ hmem)
  · exact .inr ⟨i, (congrFun hkeeps i).symm.trans hi⟩

end Memory

def Sender.Holds (t : Tagged) : Sender → Prop
  | .idle => False
  | .popped u | .sent u => t = u

def Checker.Holds (t : Tagged) : Checker → Prop
  | .requeueing batch => t ∈ batch
  | .idle | .expired | .stopped => False

def Held (c : Threads) (t : Tagged) : Prop := c.memory.Holds t ∨ c.sender.Holds t ∨ c.checker.Holds t

structure New (c c' : Threads) (t : Tagged) : Prop where
  id : t.id = c.created.length
  created : c'.created = c.created ++ [t.message]

theorem created_append (c : Threads) (msg : Message) :
    (c.history ++ [Note.enqueued msg]).filterMap Note.message = c.created ++ [msg] := by
  rw [filterMap_append]
  rfl

theorem Effect.held (h : Effect c instr c') (ht : Held c' t) : Held c t ∨ New c c' t := by
  cases h with
  | quiet hqueue hacks =>
    refine .inl (ht.imp_left fun hm => ?_)
    rcases hm with hmem | ⟨i, hi⟩
    · exact .inl (hqueue ▸ hmem)
    · rw [Memory.keeps, hacks] at hi
      exact .inr ⟨i, hi⟩
  | @posted _ msg _ hm =>
    rcases ht with ht | ht
    · rcases ht.of_enqueue hm with hold | rfl
      · exact .inl (.inl hold)
      · exact .inr ⟨rfl, created_append c msg⟩
    · exact .inl (.inr ht)
  | removed acked => exact .inl (ht.imp_left Memory.Holds.of_remove)

theorem Turn.held (h : Turn cfg c e c') (ht : Held c' t) : Held c t ∨ New c c' t := by
  cases h with
  | idle | receives | wakes => exact .inl ht
  | receiver | child => exact ((effect_exec _ _ _ _ _).held ht).imp_right fun hnew => ⟨hnew.1, hnew.2⟩
  | @pop u queue hidle hqueue =>
    rcases ht with (hmem | hslot) | rfl | hc
    · exact .inl (.inl (.inl (mem_of_mem_tail hmem)))
    · exact .inl (.inl (.inr hslot))
    · exact .inl (.inl (.inl (hqueue ▸ mem_cons_self)))
    · exact .inl (.inr (.inr hc))
  | @send sent u sender hpopped hs =>
    rcases ht with hm | hsender | hc
    · exact .inl (.inl hm)
    · refine .inl (.inr (.inl ?_))
      rw [hpopped]
      rcases hs with rfl | rfl
      · exact hsender
      · exact hsender.elim
    · exact .inl (.inr (.inr hc))
  | @track now u hsent =>
    rcases ht with hm | hsender | hc
    · refine .inl (hm.of_add.imp_right fun heq => .inl ?_)
      rw [hsent]
      exact heq
    · exact hsender.elim
    · exact .inl (.inr (.inr hc))
  | @check now checker hidle hb =>
    rcases ht with hm | hs | hc
    · exact .inl (.inl hm.of_check)
    · exact .inl (.inr (.inl hs))
    · cases checker with
      | requeueing batch => exact absurd rfl (hb batch)
      | idle | expired | stopped => exact hc.elim
  | collect =>
    rcases ht with hm | hs | hc
    · exact .inl (.inl hm)
    · exact .inl (.inr (.inl hs))
    · exact .inl (.inl (.inr (Memory.mem_collectRetryableMessages hc)))
  | @requeue u batch hbatch =>
    have hchecker : ∀ v, v ∈ u :: batch → Held c v := fun v hv => .inr (.inr (by rw [hbatch]; exact hv))
    rcases ht with hm | hs | hc
    · cases henq : c.memory.enqueuePendingMessage u with
      | none =>
        rw [henq] at hm
        exact .inl (.inl hm)
      | some m =>
        rw [henq] at hm
        rcases hm.of_enqueue henq with hold | rfl
        · exact .inl (.inl hold)
        · exact .inl (hchecker t mem_cons_self)
    · exact .inl (.inr (.inl hs))
    · exact .inl (hchecker t (mem_cons_of_mem _ hc))
  | requeued =>
    rcases ht with hm | hs | hc
    · exact .inl (.inl hm)
    · exact .inl (.inr (.inl hs))
    · exact hc.elim

theorem Effect.created (h : Effect c instr c') : c.created <+: c'.created := by
  cases h with
  | quiet _ _ hcreated => exact ⟨[], (append_nil _).trans hcreated.symm⟩
  | posted => exact ⟨_, (created_append c _).symm⟩
  | removed => exact prefix_rfl

theorem Turn.created (h : Turn cfg c e c') : c.created <+: c'.created := by
  cases h with
  | receiver | child => exact (effect_exec _ _ _ _ _).created
  | _ => exact prefix_rfl

theorem Turn.handed (h : Turn cfg c e c') :
    c'.handed = c.handed ∨ ∃ t, c.sender = .popped t ∧ c'.handed = c.handed ++ [t] := by
  cases h with
  | send hpopped => exact .inr ⟨_, hpopped, rfl⟩
  | receiver | child =>
    refine .inl ?_
    rw [(effect_exec _ _ _ _ _).frame]
  | _ => exact .inl rfl

structure Genuine (c : Threads) : Prop where
  held : ∀ t, Held c t → c.created[t.id]? = some t.message
  handed : ∀ t ∈ c.handed, c.created[t.id]? = some t.message
  acked : ∀ t, .remove t ∈ c.receiver → t ∈ c.handed
  child : ∀ t, .remove t ∉ c.child

theorem Turn.message (h : Turn cfg c e c') (ht : c.created[t.id]? = some t.message) :
    c'.created[t.id]? = some t.message := by
  obtain ⟨more, hmore⟩ := h.created
  obtain ⟨hlt, -⟩ := List.getElem?_eq_some_iff.mp ht
  rw [← hmore, getElem?_append_left hlt, ht]

theorem Turn.acked (h : Turn cfg c e c') (hacked : ∀ t, .remove t ∈ c.receiver → t ∈ c.handed) :
    ∀ t, .remove t ∈ c'.receiver → t ∈ c'.handed := by
  intro t ht
  cases h with
  | receives hwork => exact hwork t ht
  | receiver hr =>
    rw [(effect_exec _ _ _ _ _).frame]
    exact hacked t (hr ▸ mem_cons_of_mem _ ((mem_rest ht).resolve_right id))
  | child =>
    rw [(effect_exec _ _ _ _ _).frame] at ht ⊢
    exact hacked t ht
  | send => exact mem_append_left _ (hacked t ht)
  | _ => exact hacked t ht

theorem Turn.child_of (h : Turn cfg c e c') (hchild : ∀ t, .remove t ∉ c.child) : ∀ t, .remove t ∉ c'.child := by
  intro t ht
  cases h with
  | wakes hwork => exact hwork t ht
  | child hr => exact hchild t (hr ▸ mem_cons_of_mem _ ((mem_rest ht).resolve_right id))
  | receiver =>
    rw [(effect_exec _ _ _ _ _).frame] at ht
    exact hchild t ht
  | _ => exact hchild t ht

theorem Turn.genuine (h : Turn cfg c e c') (hc : Genuine c) : Genuine c' where
  held := by
    intro t ht
    rcases h.held ht with hold | hnew
    · exact h.message (hc.held t hold)
    · rw [hnew.created, hnew.id, getElem?_concat_length]
  handed := by
    intro t ht
    rcases h.handed with heq | ⟨u, hpopped, heq⟩
    · exact h.message (hc.handed t (heq ▸ ht))
    · rw [heq] at ht
      rcases mem_append.mp ht with hold | hnew
      · exact h.message (hc.handed t hold)
      · cases mem_singleton.mp hnew
        exact h.message (hc.held t (.inr (.inl (by rw [hpopped]; rfl))))
  acked := h.acked hc.acked
  child := h.child_of hc.child

theorem genuine_step (cfg : AckConfig) (c : Threads) (e : Event) (hc : Genuine c) : Genuine (step cfg c e) :=
  (turn_step cfg c e).genuine hc

theorem genuine_start (clientRole clientId : String) : Genuine (start clientRole clientId) where
  held := by
    rintro t ((hmem | ⟨i, hi⟩) | hs | hc)
    · cases hmem
    · cases hi
    · exact hs.elim
    · exact hc.elim
  handed := forall_mem_nil _
  acked := by
    rintro t ht
    cases ht
  child := by
    rintro t ht
    cases ht

end Logistics.ClientThreads
