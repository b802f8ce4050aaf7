import Mathlib.Algebra.Order.BigOperators.Group.Finset
import Mathlib.Algebra.Order.Group.PosPart
import Mathlib.Data.Fintype.BigOperators

namespace Logistics.NetworkFlow

open Finset

variable {α K : Type} [Fintype α] [AddCommGroup K] [LinearOrder K] {c f r g : α → α → K} {s t : α} {val : K}

structure IsFlow (c : α → α → K) (s t : α) (f : α → α → K) : Prop where
  nonneg : ∀ x y, 0 ≤ f x y
  le : ∀ x y, f x y ≤ c x y
  conserved : ∀ x, x ≠ s → x ≠ t → ∑ y, f x y = ∑ y, f y x

def value (s : α) (f : α → α → K) : K := ∑ y, f s y - ∑ y, f y s

variable [DecidableEq α]

def cutCapacity (c : α → α → K) (S : Finset α) : K := ∑ x ∈ S, ∑ y ∈ Sᶜ, c x y

structure IsMaximum (c : α → α → K) (s t : α) (val : K) : Prop where
  flow : ∃ f, IsFlow c s t f ∧ value s f = val
  cut : ∃ S, s ∈ S ∧ t ∉ S ∧ cutCapacity c S = val

structure Residual (c : α → α → K) (s t : α) (r : α → α → K) (val : K) : Prop where
  nonneg : ∀ x y, 0 ≤ r x y
  symm : ∀ x y, r x y + r y x = c x y + c y x
  balance : ∀ x, ∑ y, (c x y - r x y) = (if x = s then val else 0) - if x = t then val else 0

theorem residual_self (h : ∀ x y, 0 ≤ c x y) : Residual c s t c 0 := by
  refine ⟨h, fun _ _ => rfl, fun x => ?_⟩
  simp only [sub_self, sum_const_zero, ite_self]

theorem Residual.net_anti (h : Residual c s t r val) (x y : α) : c y x - r y x = -(c x y - r x y) := by
  rw [neg_sub, sub_eq_sub_iff_add_eq_add, h.symm, add_comm]

theorem IsMaximum.relabel {β : Type} [Fintype β] [DecidableEq β] (e : α ≃ β) {c' : β → β → K}
    (hc : ∀ x y, c' (e x) (e y) = c x y) (h : IsMaximum c s t val) : IsMaximum c' (e s) (e t) val := by
  obtain ⟨⟨f, hf, hvalue⟩, S, hs, ht, hcut⟩ := h
  have hsymm (x y : β) : c' x y = c (e.symm x) (e.symm y) := by
    rw [← hc, e.apply_symm_apply, e.apply_symm_apply]
  refine ⟨⟨fun x y => f (e.symm x) (e.symm y), ⟨?_, ?_, ?_⟩, ?_⟩, S.map e.toEmbedding, ?_, ?_, ?_⟩
  · intro x y
    exact hf.nonneg _ _
  · intro x y
    rw [hsymm]
    exact hf.le _ _
  · intro x hxs hxt
    have hconserved := hf.conserved (e.symm x) (fun heq => hxs (e.symm_apply_eq.mp heq))
      fun heq => hxt (e.symm_apply_eq.mp heq)
    rwa [e.symm.sum_comp (f (e.symm x)), e.symm.sum_comp fun y => f y (e.symm x)]
  · rw [← hvalue, value, value, e.symm_apply_apply, e.symm.sum_comp (f s), e.symm.sum_comp fun y => f y s]
  · exact (mem_map_equiv).mpr (by rwa [e.symm_apply_apply])
  · rw [mem_map_equiv, e.symm_apply_apply]
    exact ht
  · have hcompl : (S.map e.toEmbedding)ᶜ = Sᶜ.map e.toEmbedding := by
      ext x
      simp only [mem_compl, mem_map_equiv]
    rw [← hcut, cutCapacity, hcompl, sum_map]
    refine sum_congr rfl fun x _ => ?_
    rw [sum_map]
    exact sum_congr rfl fun y _ => hc x y

variable [IsOrderedAddMonoid K] {S : Finset α}

theorem sum_cut (hanti : ∀ x y, g y x = -g x y) (hs : s ∈ S)
    (hzero : ∀ x ∈ S, x ≠ s → ∑ y, g x y = 0) : ∑ x ∈ S, ∑ y ∈ Sᶜ, g x y = ∑ y, g s y := by
  have hinner : ∑ x ∈ S, ∑ y ∈ S, g x y = 0 := by
    have hswap : ∑ x ∈ S, ∑ y ∈ S, g x y = -∑ x ∈ S, ∑ y ∈ S, g x y := by
      calc
        ∑ x ∈ S, ∑ y ∈ S, g x y = ∑ y ∈ S, ∑ x ∈ S, g x y := sum_comm
        _ = ∑ y ∈ S, ∑ x ∈ S, -g y x := sum_congr rfl fun y _ => sum_congr rfl fun x _ => hanti y x
        _ = -∑ x ∈ S, ∑ y ∈ S, g x y := by simp only [sum_neg_distrib]
    exact self_eq_neg.mp hswap
  have hall : ∑ x ∈ S, ∑ y, g x y = ∑ y, g s y :=
    sum_eq_single_of_mem s hs hzero
  have hsplit : ∀ x, ∑ y, g x y = ∑ y ∈ S, g x y + ∑ y ∈ Sᶜ, g x y := fun x => (sum_add_sum_compl S (g x)).symm
  rw [← hall]
  simp only [hsplit, sum_add_distrib, hinner, zero_add]

theorem IsFlow.value_le (h : IsFlow c s t f) (hs : s ∈ S) (ht : t ∉ S) : value s f ≤ cutCapacity c S := by
  have hcut : ∑ x ∈ S, ∑ y ∈ Sᶜ, (f x y - f y x) = ∑ y, (f s y - f y s) := by
    refine sum_cut (fun x y => (neg_sub _ _).symm) hs fun x hx hne => ?_
    rw [sum_sub_distrib, sub_eq_zero]
    exact h.conserved x hne fun heq => ht (heq ▸ hx)
  calc
    value s f = ∑ x ∈ S, ∑ y ∈ Sᶜ, (f x y - f y x) := by rw [hcut, sum_sub_distrib, value]
    _ ≤ ∑ x ∈ S, ∑ y ∈ Sᶜ, c x y :=
      sum_le_sum fun x _ => sum_le_sum fun y _ => (sub_le_self _ (h.nonneg y x)).trans (h.le x y)

theorem IsMaximum.value_le (h : IsMaximum c s t val) (hf : IsFlow c s t f) : value s f ≤ val := by
  obtain ⟨S, hs, ht, rfl⟩ := h.cut
  exact hf.value_le hs ht

theorem IsMaximum.unique {val' : K} (h : IsMaximum c s t val) (h' : IsMaximum c s t val') : val = val' := by
  obtain ⟨f, hf, rfl⟩ := h.flow
  obtain ⟨f', hf', rfl⟩ := h'.flow
  exact (h'.value_le hf).antisymm (h.value_le hf')

namespace Residual

def net (c r : α → α → K) (x y : α) : K := (c x y - r x y)⁺

theorem net_sub (h : Residual c s t r val) (x y : α) : net c r x y - net c r y x = c x y - r x y := by
  rw [net, net, h.net_anti x y, posPart_neg, posPart_sub_negPart]

theorem sum_net (h : Residual c s t r val) (x : α) :
    ∑ y, net c r x y - ∑ y, net c r y x = (if x = s then val else 0) - if x = t then val else 0 := by
  rw [← sum_sub_distrib, ← h.balance]
  exact sum_congr rfl fun y _ => h.net_sub x y

theorem isFlow (h : Residual c s t r val) (hc : ∀ x y, 0 ≤ c x y) : IsFlow c s t (net c r) where
  nonneg x y := posPart_nonneg _
  le x y := by
    exact sup_le (sub_le_self _ (h.nonneg x y)) (hc x y)
  conserved x hs ht := by
    have hsum := h.sum_net x
    rwa [if_neg hs, if_neg ht, sub_zero, sub_eq_zero] at hsum

theorem value_net (h : Residual c s t r val) (hne : s ≠ t) : value s (net c r) = val := by
  rw [value, h.sum_net, if_pos rfl, if_neg hne, sub_zero]

theorem cutCapacity_eq (h : Residual c s t r val) (hne : s ≠ t) (hs : s ∈ S) (ht : t ∉ S)
    (hfull : ∀ x ∈ S, ∀ y ∉ S, r x y = 0) : cutCapacity c S = val := by
  have hzero : ∀ x ∈ S, x ≠ s → ∑ y, (c x y - r x y) = 0 := by
    intro x hx hxs
    have hxt : x ≠ t := fun heq => ht (heq ▸ hx)
    rw [h.balance, if_neg hxs, if_neg hxt, sub_zero]
  calc
    cutCapacity c S = ∑ x ∈ S, ∑ y ∈ Sᶜ, (c x y - r x y) :=
      sum_congr rfl fun x hx => sum_congr rfl fun y hy => by rw [hfull x hx y (mem_compl.mp hy), sub_zero]
    _ = ∑ y, (c s y - r s y) := sum_cut h.net_anti hs hzero
    _ = val := by rw [h.balance, if_pos rfl, if_neg hne, sub_zero]

/-- A saturated cut shows that the value sent is the maximum. -/
theorem isMaximum (h : Residual c s t r val) (hc : ∀ x y, 0 ≤ c x y) (hne : s ≠ t) (hs : s ∈ S)
    (ht : t ∉ S) (hfull : ∀ x ∈ S, ∀ y ∉ S, r x y = 0) : IsMaximum c s t val where
  flow := ⟨_, h.isFlow hc, h.value_net hne⟩
  cut := ⟨S, hs, ht, h.cutCapacity_eq hne hs ht hfull⟩

end Residual

end Logistics.NetworkFlow
