import Mathlib.Algebra.Order.BigOperators.Group.List

namespace Logistics.LastWins

open List

variable {α M : Type*}

theorem foldl_assign (p : α → Prop) [DecidablePred p] (amount : α → M) (list : List α) (initial : M) :
    list.foldl (fun kept a => if p a then amount a else kept) initial =
      ((list.filter p).map amount).getLastD initial := by
  induction list generalizing initial with
  | nil => rfl
  | cons a rest ih =>
    rw [foldl_cons, ih]
    by_cases h : p a
    · rw [if_pos h, filter_cons_of_pos (by simpa using h), map_cons, getLastD_cons]
    · rw [if_neg h, filter_cons_of_neg (by simpa using h)]

variable [AddCommGroup M] [PartialOrder M] [IsOrderedAddMonoid M] {amounts : List M}

theorem sum_eq_getLastD_iff (h : ∀ x ∈ amounts, 0 ≤ x) :
    amounts.sum = amounts.getLastD 0 ↔ ∀ x ∈ amounts.dropLast, x = 0 := by
  rcases amounts.eq_nil_or_concat with rfl | ⟨earlier, last, rfl⟩
  · simp
  · rw [concat_eq_append, sum_append, sum_singleton, getLastD_concat, dropLast_concat,
      add_eq_right]
    constructor
    · exact all_zero_of_le_zero_le_of_sum_eq_zero fun x hx => h x (by simp [hx])
    · exact sum_eq_zero

theorem sum_eq_getLastD_iff_of_pos (h : ∀ x ∈ amounts, 0 < x) :
    amounts.sum = amounts.getLastD 0 ↔ amounts.length ≤ 1 := by
  rw [sum_eq_getLastD_iff fun x hx => (h x hx).le]
  rcases amounts.eq_nil_or_concat with rfl | ⟨earlier, last, rfl⟩
  · simp
  · have hlength : (earlier ++ [last]).length ≤ 1 ↔ earlier = [] := by simp
    rw [concat_eq_append, dropLast_concat, hlength]
    constructor
    · intro hzero
      exact eq_nil_iff_forall_not_mem.mpr fun x hx => (h x (by simp [hx])).ne' (hzero x hx)
    · rintro rfl x ⟨⟩

theorem eq_singleton_of_sum {list : List α} {amount : α → M} {a : α} (h : ∀ x ∈ list, 0 < amount x) (ha : a ∈ list)
    (hsum : (list.map amount).sum = amount a) : list = [a] := by
  obtain ⟨before, after, rfl⟩ := append_of_mem ha
  have hzero : ((before ++ after).map amount).sum = 0 := by
    rw [map_append, map_cons, sum_append, sum_cons, add_left_comm] at hsum
    rw [map_append, sum_append]
    exact left_eq_add.mp hsum.symm
  have hpos : ∀ x ∈ before ++ after, 0 < amount x := by
    intro x hx
    apply h x
    rcases mem_append.mp hx with hx | hx
    · exact mem_append_left _ hx
    · exact mem_append_right _ (mem_cons_of_mem a hx)
  have hnil : before ++ after = [] := by
    refine eq_nil_iff_forall_not_mem.mpr fun x hx => (hpos x hx).ne' ?_
    refine all_zero_of_le_zero_le_of_sum_eq_zero (fun y hy => ?_) hzero (mem_map_of_mem hx)
    obtain ⟨z, hz, rfl⟩ := mem_map.mp hy
    exact (hpos z hz).le
  obtain ⟨rfl, rfl⟩ := append_eq_nil_iff.mp hnil
  rfl

end Logistics.LastWins
