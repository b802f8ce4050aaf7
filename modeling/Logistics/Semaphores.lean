import Mathlib.Algebra.BigOperators.Group.Finset.Piecewise
import Mathlib.Algebra.Order.BigOperators.Group.Finset

namespace Logistics.ThreadCount

open Function

variable {ι β : Type} [Fintype ι] [DecidableEq ι]

def total (f : β → Nat) (pc : ι → β) : Nat := ∑ i, f (pc i)

omit [DecidableEq ι] in
theorem le_total (f : β → Nat) (pc : ι → β) (i : ι) : f (pc i) ≤ total f pc :=
  Finset.single_le_sum (f := fun i => f (pc i)) (fun _ _ => Nat.zero_le _) (Finset.mem_univ i)

theorem total_update (f : β → Nat) (pc : ι → β) (i : ι) (b : β) :
    total f (update pc i b) + f (pc i) = total f pc + f b := by
  have hl : total f (update pc i b) = f b + ∑ j ∈ Finset.univ.erase i, f (pc j) := by
    rw [total, ← Finset.add_sum_erase _ _ (Finset.mem_univ i), update_self]
    congr 1
    refine Finset.sum_congr rfl fun j hj => ?_
    rw [update_of_ne (Finset.ne_of_mem_erase hj)]
  have hr : total f pc = f (pc i) + ∑ j ∈ Finset.univ.erase i, f (pc j) :=
    (Finset.add_sum_erase _ _ (Finset.mem_univ i)).symm
  omega

omit [DecidableEq ι] in
theorem total_eq_zero (f : β → Nat) (pc : ι → β) (h : ∀ i, f (pc i) = 0) : total f pc = 0 :=
  Finset.sum_eq_zero fun i _ => h i

end Logistics.ThreadCount

namespace Logistics.Semaphores

section Exclusion

variable {α : Type} {value : Nat} {inside inside' : α → Prop} {a b : α}

def Excludes (value : Nat) (inside : α → Prop) : Prop :=
  (value = 1 ∧ ∀ a, ¬ inside a) ∨ value = 0 ∧ ∃ a, inside a ∧ ∀ b, inside b → b = a

theorem Excludes.unique (h : Excludes value inside) (ha : inside a) (hb : inside b) : a = b := by
  rcases h with ⟨-, hnone⟩ | ⟨-, c, -, honly⟩
  · exact absurd ha (hnone a)
  · exact (honly a ha).trans (honly b hb).symm

theorem Excludes.congr (h : Excludes value inside) (hsame : ∀ b, inside' b ↔ inside b) : Excludes value inside' := by
  rwa [funext fun b => propext (hsame b)]

theorem Excludes.wait (h : Excludes value inside) (hpos : 0 < value) (ha : inside' a)
    (hothers : ∀ b, b ≠ a → (inside' b ↔ inside b)) : Excludes (value - 1) inside' := by
  rcases h with ⟨rfl, hnone⟩ | ⟨rfl, -⟩
  · refine .inr ⟨rfl, a, ha, fun b hb => ?_⟩
    by_contra hne
    exact hnone b ((hothers b hne).mp hb)
  · exact absurd hpos (Nat.lt_irrefl 0)

theorem Excludes.post (h : Excludes value inside) (ha : inside a) (hleft : ¬ inside' a)
    (hothers : ∀ b, b ≠ a → (inside' b ↔ inside b)) : Excludes (value + 1) inside' := by
  rcases h with ⟨-, hnone⟩ | ⟨rfl, c, -, honly⟩
  · exact absurd ha (hnone a)
  · refine .inl ⟨rfl, fun b hb => ?_⟩
    by_cases hne : b = a
    · exact hleft (hne ▸ hb)
    · exact hne ((honly b ((hothers b hne).mp hb)).trans (honly a ha).symm)

end Exclusion

section Tally

variable {ι σ : Type} [Fintype ι] [DecidableEq ι]

def tally (p : σ → Bool) (states : ι → σ) : Nat := ∑ t, (p (states t)).toNat

theorem tally_update (p : σ → Bool) (states : ι → σ) (t : ι) (s : σ) :
    tally p (Function.update states t s) + (p (states t)).toNat = tally p states + (p s).toNat :=
  ThreadCount.total_update (fun s => (p s).toNat) states t s

end Tally

end Logistics.Semaphores
