import Mathlib.Data.Set.Card

namespace Logistics.LayeredWalks

variable {α : Type} {E E' : α → α → Prop} {φ : α → Nat} {s t u v w : α} {m n d d' : Nat}

inductive Steps (E : α → α → Prop) (u : α) : Nat → α → Prop
  | refl : Steps E u 0 u
  | step {n : Nat} {v w : α} (h : Steps E u n v) (he : E v w) : Steps E u (n + 1) w

def Layered (E : α → α → Prop) (φ : α → Nat) : Prop := ∀ x y, E x y → φ y ≤ φ x + 1

def Tight (E : α → α → Prop) (s t : α) (d : Nat) : Set (α × α) :=
  {e | ∃ i j, Steps E s i e.1 ∧ E e.1 e.2 ∧ Steps E e.2 j t ∧ i + 1 + j = d}

theorem Steps.trans (h : Steps E u m v) (h' : Steps E v n w) : Steps E u (m + n) w := by
  induction h' with
  | refl => exact h
  | step _ he ih => exact ih.step he

theorem exists_mid (h : Steps E u (m + n) w) : ∃ v, Steps E u m v ∧ Steps E v n w := by
  induction n generalizing w with
  | zero => exact ⟨w, h, .refl⟩
  | succ n ih =>
    cases h with
    | step h he =>
      obtain ⟨v, hv, hrest⟩ := ih h
      exact ⟨v, hv, hrest.step he⟩

theorem Layered.le (h : Layered E φ) (hw : Steps E u n v) : φ v ≤ φ u + n := by
  induction hw with
  | refl => exact le_rfl
  | step _ he ih => exact (h _ _ he).trans (by omega)

theorem Steps.of_rising (h : Layered E' φ) (hsub : ∀ x y, E' x y → φ y = φ x + 1 → E x y) (hw : Steps E' u n v)
    (heq : φ v = φ u + n) : Steps E u n v := by
  induction hw with
  | refl => exact .refl
  | step hw he ih =>
    have hle := h.le hw
    have hstep := h _ _ he
    exact (ih (by omega)).step (hsub _ _ he (by omega))

/-- If a level function of the old graph still bounds the new one, a shortest walk of
the same length uses edges of the old graph only. -/
theorem tight_subset (hs : φ s = 0) (ht : φ t = d) (h : Layered E' φ)
    (hsub : ∀ x y, E' x y → φ y = φ x + 1 → E x y) : Tight E' s t d ⊆ Tight E s t d := by
  rintro ⟨x, y⟩ ⟨i, j, hi, he, hj, rfl⟩
  have hx := h.le hi
  have hy := h.le hj
  have hxy := h _ _ he
  refine ⟨i, j, hi.of_rising h hsub ?_, hsub x y he ?_, hj.of_rising h hsub ?_, rfl⟩
  all_goals dsimp only at hx hy hxy ⊢; omega

variable [Fintype α]

theorem lt_card (h : IsLeast {n | Steps E s n t} d) : d < Fintype.card α := by
  have hmid : ∀ i : Fin (d + 1), ∃ x, Steps E s i x ∧ Steps E x (d - i) t := by
    intro i
    have hsplit : i.val + (d - i.val) = d := by omega
    exact exists_mid (hsplit.symm ▸ h.1)
  choose x hx hrest using hmid
  have hinj : Function.Injective x := by
    intro i j heq
    have hij : d ≤ i + (d - j) := h.2 ((hx i).trans (heq ▸ hrest j))
    have hji : d ≤ j + (d - i) := h.2 ((hx j).trans (heq ▸ hrest i))
    omega
  have hcard := Fintype.card_le_of_injective x hinj
  rwa [Fintype.card_fin] at hcard

noncomputable def budget (E : α → α → Prop) (s t : α) (d : Nat) : Nat :=
  (Fintype.card α - 1 - d) * Fintype.card α ^ 2 + (Tight E s t d).ncard

theorem ncard_tight_le : (Tight E s t d).ncard ≤ Fintype.card α ^ 2 := by
  calc
    (Tight E s t d).ncard ≤ (Set.univ : Set (α × α)).ncard := Set.ncard_le_ncard (Set.subset_univ _)
    _ = Fintype.card α ^ 2 := by rw [Set.ncard_univ, Nat.card_eq_fintype_card, Fintype.card_prod, sq]

theorem budget_le (h : IsLeast {n | Steps E s n t} d) : budget E s t d ≤ Fintype.card α ^ 3 := by
  have hpos := lt_card h
  calc
    budget E s t d ≤ (Fintype.card α - 1) * Fintype.card α ^ 2 + Fintype.card α ^ 2 :=
      Nat.add_le_add (Nat.mul_le_mul_right _ (Nat.sub_le _ _)) ncard_tight_le
    _ = (Fintype.card α - 1 + 1) * Fintype.card α ^ 2 := (Nat.succ_mul _ _).symm
    _ = Fintype.card α * Fintype.card α ^ 2 := by rw [Nat.sub_add_cancel (by omega)]
    _ = Fintype.card α ^ 3 := (pow_succ' _ 2).symm

/-- A round that takes an edge off a shortest walk, and adds only edges that go down by
one level, costs a part of the budget. -/
theorem budget_lt (hs : φ s = 0) (ht : φ t = d) (hold : Layered E φ)
    (hnew : ∀ x y, E' x y → E x y ∨ φ x = φ y + 1) (hlost : (u, v) ∈ Tight E s t d) (hgone : ¬ E' u v)
    (hd' : IsLeast {n | Steps E' s n t} d') : budget E' s t d' < budget E s t d := by
  have hlayered : Layered E' φ := by
    intro x y he
    rcases hnew x y he with hkept | hdown
    · exact hold x y hkept
    · omega
  have hsub : ∀ x y, E' x y → φ y = φ x + 1 → E x y := by
    intro x y he hup
    rcases hnew x y he with hkept | hdown
    · exact hkept
    · omega
  have hfar : d ≤ d' := by
    have hle := hlayered.le hd'.1
    omega
  rcases hfar.eq_or_lt with rfl | hlt
  · refine Nat.add_lt_add_left (Set.ncard_lt_ncard (Set.ssubset_iff_of_subset ?_ |>.mpr ⟨(u, v), hlost, ?_⟩)) _
    · exact tight_subset hs ht hlayered hsub
    · rintro ⟨i, j, -, he, -⟩
      exact hgone he
  · have hcard := lt_card hd'
    have hpos : 0 < (Tight E s t d).ncard := (Set.ncard_pos (Set.toFinite _)).mpr ⟨_, hlost⟩
    calc
      budget E' s t d' ≤ (Fintype.card α - 1 - d') * Fintype.card α ^ 2 + Fintype.card α ^ 2 :=
        Nat.add_le_add_left ncard_tight_le _
      _ = (Fintype.card α - 1 - d' + 1) * Fintype.card α ^ 2 := (Nat.succ_mul _ _).symm
      _ ≤ (Fintype.card α - 1 - d) * Fintype.card α ^ 2 := Nat.mul_le_mul_right _ (by omega)
      _ < budget E s t d := Nat.lt_add_of_pos_right hpos

end Logistics.LayeredWalks
