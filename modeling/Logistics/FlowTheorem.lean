import Mathlib.Algebra.Order.Ring.Rat
import Mathlib.Tactic.Abel
import Logistics.FlowSolver
import Logistics.NetworkFlow

namespace Logistics.FlowSolver

open LayeredWalks List

section

variable {V : Nat} {K : Type} {residual : Fin V → Fin V → K} {s t u v : Fin V} {level : Fin V → Nat}
  {tree : Fin V → Prop} {parent : Fin V → Option (Fin V)} {path : List (Fin V × Fin V)}

theorem pathFlow_spec [LinearOrder K] (residual : Fin V → Fin V → K) (hne : path ≠ []) :
    ∃ flow : K, pathFlow residual path = flow ∧
    (∀ e ∈ path, flow ≤ residual e.1 e.2) ∧ ∃ e ∈ path, residual e.1 e.2 = flow := by
  induction path using List.reverseRecOn with
  | nil => exact absurd rfl hne
  | append_singleton path e ih =>
    have hlast : pathFlow residual (path ++ [e]) = min (pathFlow residual path) (residual e.1 e.2 : WithTop K) :=
      foldl_append
    rw [hlast]
    by_cases hempty : path = []
    · subst hempty
      refine ⟨residual e.1 e.2, min_eq_right le_top, ?_, e, mem_cons_self, rfl⟩
      intro e' he'
      rw [mem_singleton.mp he']
    · obtain ⟨flow, hflow, hle, e', he', heq⟩ := ih hempty
      refine ⟨min flow (residual e.1 e.2), by rw [hflow, WithTop.coe_min], ?_, ?_⟩
      · intro e₁ he₁
        rcases mem_append.mp he₁ with hold | hnew
        · exact (min_le_left _ _).trans (hle e₁ hold)
        · rw [mem_singleton.mp hnew]
          exact min_le_right _ _
      · rcases le_total flow (residual e.1 e.2) with hmin | hmin
        · exact ⟨e', mem_append_left _ he', by rw [heq, min_eq_left hmin]⟩
        · exact ⟨e, mem_append_right _ mem_cons_self, (min_eq_right hmin).symm⟩

variable [AddCommGroup K]

inductive IsPath (s : Fin V) : Fin V → List (Fin V × Fin V) → Prop
  | nil : IsPath s s []
  | cons {u v : Fin V} {path : List (Fin V × Fin V)} (h : IsPath s u path) : IsPath s v ((u, v) :: path)

def carried (flow : K) (path : List (Fin V × Fin V)) (e : Fin V × Fin V) : K :=
  (path.map fun e' => if e' = e then flow else 0).sum

@[simp] theorem carried_nil (flow : K) (e : Fin V × Fin V) : carried flow [] e = 0 := rfl

@[simp] theorem carried_cons (flow : K) (path : List (Fin V × Fin V)) (e e' : Fin V × Fin V) :
    carried flow (e' :: path) e = (if e' = e then flow else 0) + carried flow path e := sum_cons

theorem carried_of_nodup (hnodup : path.Nodup) (flow : K) (e : Fin V × Fin V) :
    carried flow path e = if e ∈ path then flow else 0 := by
  induction path with
  | nil => rfl
  | cons e' path ih =>
    obtain ⟨hnot, hrest⟩ := nodup_cons.mp hnodup
    rw [carried_cons, ih hrest]
    by_cases heq : e' = e
    · subst heq
      rw [if_pos rfl, if_neg hnot, add_zero, if_pos mem_cons_self]
    · rw [if_neg heq, zero_add]
      exact if_congr (by rw [mem_cons, or_iff_right (Ne.symm heq)]) rfl rfl

theorem augment_apply (residual : Fin V → Fin V → K) (flow : K) (path : List (Fin V × Fin V)) (x y : Fin V) :
    augment residual flow path x y = residual x y + (carried flow path (y, x) - carried flow path (x, y)) := by
  induction path generalizing residual with
  | nil => simp [augment]
  | cons e path ih =>
    have hpush : addAt (addAt residual e.1 e.2 (-flow)) e.2 e.1 flow x y =
        residual x y + ((if e = (y, x) then flow else 0) - if e = (x, y) then flow else 0) := by
      have hback : e = (y, x) ↔ x = e.2 ∧ y = e.1 := by rw [Prod.ext_iff, and_comm, eq_comm, @eq_comm _ e.1]
      have hforth : e = (x, y) ↔ x = e.1 ∧ y = e.2 := by rw [Prod.ext_iff, eq_comm, @eq_comm _ e.2]
      simp only [addAt, hback, hforth]
      split <;> split <;> abel
    change augment (addAt (addAt residual e.1 e.2 (-flow)) e.2 e.1 flow) flow path x y = _
    rw [ih, hpush, carried_cons, carried_cons]
    abel

theorem IsPath.balance (h : IsPath s v path) (flow : K) (x : Fin V) :
    ∑ y, (carried flow path (x, y) - carried flow path (y, x)) =
      (if x = s then flow else 0) - if x = v then flow else 0 := by
  induction h with
  | nil => simp
  | @cons u v path h ih =>
    have hout : ∑ y, (if (u, v) = (x, y) then flow else 0) = if x = u then flow else 0 := by
      by_cases hxu : x = u
      · simp [hxu]
      · simp [hxu, Ne.symm hxu]
    have hin : ∑ y, (if (u, v) = (y, x) then flow else 0) = if x = v then flow else 0 := by
      by_cases hxv : x = v
      · simp [hxv]
      · simp [hxv, Ne.symm hxv]
    calc
      ∑ y, (carried flow ((u, v) :: path) (x, y) - carried flow ((u, v) :: path) (y, x)) =
          ∑ y, ((if (u, v) = (x, y) then flow else 0) - (if (u, v) = (y, x) then flow else 0) +
            (carried flow path (x, y) - carried flow path (y, x))) :=
        Finset.sum_congr rfl fun y _ => by rw [carried_cons, carried_cons]; abel
      _ = _ := by
        rw [Finset.sum_add_distrib, Finset.sum_sub_distrib, hout, hin, ih]
        abel

variable [LinearOrder K]

structure OnWay (residual : Fin V → Fin V → K) (s : Fin V) (level : Fin V → Nat) (v : Fin V) (e : Fin V × Fin V) :
    Prop where
  positive : Positive residual e.1 e.2
  up : level e.2 = level e.1 + 1
  before : Steps (Positive residual) s (level e.1) e.1
  below : level e.2 ≤ level v
  after : Steps (Positive residual) e.2 (level v - level e.2) v

theorem OnWay.step {e : Fin V × Fin V} (h : OnWay residual s level u e) (hedge : Positive residual u v)
    (hup : level v = level u + 1) : OnWay residual s level v e := by
  have hbelow := h.below
  refine ⟨h.positive, h.up, h.before, by omega, ?_⟩
  have hlength : level v - level e.2 = level u - level e.2 + 1 := by omega
  rw [hlength]
  exact h.after.step hedge

/-- The parents lead from the sink to the source along a shortest walk. -/
theorem Found.pathTo (h : Found residual s t level tree parent) (fuel : Nat) (hv : tree v) (hfuel : level v ≤ fuel) :
    IsPath s v (pathTo parent s fuel v) ∧ (∀ e ∈ pathTo parent s fuel v, OnWay residual s level v e) ∧
      (pathTo parent s fuel v).Nodup ∧ (pathTo parent s fuel v).length = level v := by
  induction fuel generalizing v with
  | zero =>
    have hvs : v = s := by
      by_contra hvs
      obtain ⟨u, -, -, -, hup⟩ := h.parent v hv hvs
      omega
    subst hvs
    exact ⟨.nil, by rintro e ⟨⟩, nodup_nil, h.source.symm⟩
  | succ fuel ih =>
    rw [FlowSolver.pathTo]
    split
    · next hvs =>
      subst hvs
      exact ⟨.nil, by rintro e ⟨⟩, nodup_nil, h.source.symm⟩
    · next hvs =>
      obtain ⟨u, hparent, hu, hedge, hup⟩ := h.parent v hv hvs
      obtain ⟨hpath, hway, hnodup, hlength⟩ := ih hu (by omega)
      rw [hparent]
      refine ⟨hpath.cons, ?_, nodup_cons.mpr ⟨fun hmem => ?_, hnodup⟩, by rw [length_cons, hlength, hup]⟩
      · intro e he
        rcases mem_cons.mp he with rfl | he
        · exact ⟨hedge, hup, h.steps _ hu rfl, le_rfl, by rw [Nat.sub_self]; exact .refl⟩
        · exact (hway e he).step hedge hup
      · have hbelow : level v ≤ level u := (hway _ hmem).below
        omega

theorem Found.of_mem_pathTo (h : Found residual s t level tree parent) {fuel : Nat} {e : Fin V × Fin V} (hv : tree v)
    (he : e ∈ FlowSolver.pathTo parent s fuel v) : tree e.2 ∧ parent e.2 = some e.1 := by
  induction fuel generalizing v with
  | zero => cases he
  | succ fuel ih =>
    rw [FlowSolver.pathTo] at he
    split at he
    · cases he
    · next hvs =>
      obtain ⟨u, hparent, hu, -, -⟩ := h.parent v hv hvs
      rw [hparent] at he
      rcases mem_cons.mp he with rfl | he
      · exact ⟨hv, hparent⟩
      · exact ih hu he

/-- A search finds the sink if there is a walk to it through positive entries. The parents
then lead back to the source along a shortest one, through entries that this search
wrote, whatever the array held before. -/
theorem bfs_exact (residual : Fin V → Fin V → K) (s t : Fin V) (hne : s ≠ t) (parent : Fin V → Option (Fin V)) :
    ((bfs residual s t parent).1 = true ↔ ∃ n, Steps (Positive residual) s n t) ∧ ((bfs residual s t parent).1 = true →
        IsPath s t (pathTo (bfs residual s t parent).2 s V t) ∧
        (∀ e ∈ pathTo (bfs residual s t parent).2 s V t, Positive residual e.1 e.2 ∧
          (bfs residual s t parent).2 e.2 = some e.1 ∧ ∀ stale, (bfs residual s t stale).2 e.2 = some e.1) ∧
        IsLeast {n | Steps (Positive residual) s n t} (pathTo (bfs residual s t parent).2 s V t).length) := by
  refine ⟨bfs_eq_true_iff hne, fun htrue => ?_⟩
  obtain ⟨level, hfound⟩ := bfs_true hne htrue
  have hshort := lt_card hfound.isLeast
  rw [Fintype.card_fin] at hshort
  obtain ⟨hpath, hway, -, hlength⟩ := hfound.pathTo V hfound.sink hshort.le
  refine ⟨hpath, fun e he => ?_, hlength ▸ hfound.isLeast⟩
  obtain ⟨htree, hparent⟩ := hfound.of_mem_pathTo hfound.sink he
  refine ⟨(hway e he).positive, hparent, fun stale => ?_⟩
  have hagrees : Agrees t (search residual t V (Search.start s parent)) (search residual t V (Search.start s stale)) :=
    (agrees_start parent stale).search V
  exact (hagrees.parent e.2 (htree.imp_right fun ht => ⟨htrue, ht⟩)).trans hparent

theorem bfs_across_edge : IsLeast {n | Steps (Positive fun _ _ : Fin 2 => (1 : Int)) 0 n 1}
    (pathTo (bfs (fun _ _ : Fin 2 => (1 : Int)) 0 1 fun _ => none).2 0 2 1).length :=
  ((bfs_exact (fun _ _ : Fin 2 => (1 : Int)) 0 1 (by decide) fun _ => none).2 (by decide)).2.2

variable {st st' : State V K} {flow : K}

structure Augments (s t : Fin V) (st st' : State V K) (level : Fin V → Nat) (path : List (Fin V × Fin V)) (flow : K) :
    Prop where
  source : level s = 0
  layered : Layered (Positive st.residual) level
  least : IsLeast {n | Steps (Positive st.residual) s n t} (level t)
  isPath : IsPath s t path
  nodup : path.Nodup
  way : ∀ e ∈ path, OnWay st.residual s level t e
  le : ∀ e ∈ path, flow ≤ st.residual e.1 e.2
  critical : ∃ e ∈ path, st.residual e.1 e.2 = flow
  residual : st'.residual = augment st.residual flow path
  maxFlow : st'.maxFlow = st.maxFlow + flow

theorem round_spec (hne : s ≠ t) (h : round s t st = some st') :
    ∃ level path flow, Augments s t st st' level path flow := by
  unfold round at h
  dsimp only at h
  split at h
  · next htrue =>
    obtain ⟨level, hfound⟩ := bfs_true hne htrue
    have hshort : level t < V := by
      have hlt := lt_card hfound.isLeast
      rwa [Fintype.card_fin] at hlt
    obtain ⟨hpath, hway, hnodup, -⟩ := hfound.pathTo V hfound.sink hshort.le
    have hnil : pathTo (bfs st.residual s t st.parent).2 s V t ≠ [] := by
      intro hnil
      rw [hnil] at hpath
      cases hpath
      exact hne rfl
    obtain ⟨flow, hflow, hle, hcritical⟩ := pathFlow_spec st.residual hnil
    rw [hflow] at h
    cases h
    exact ⟨level, _, flow, hfound.source, hfound.layered, hfound.isLeast, hpath, hnodup, hway, hle, hcritical, rfl, rfl⟩
  · cases h

theorem round_none (hne : s ≠ t) (h : round s t st = none) :
    ∃ S : Finset (Fin V), s ∈ S ∧ t ∉ S ∧ ∀ x ∈ S, ∀ y ∉ S, ¬ Positive st.residual x y := by
  unfold round at h
  dsimp only at h
  split at h
  · cases h
  · next hfalse => exact bfs_false hne (Bool.eq_false_iff.mpr hfalse)

namespace Augments

variable (h : Augments s t st st' level path flow)

include h

theorem residual_apply (x y : Fin V) : st'.residual x y =
    st.residual x y + ((if (y, x) ∈ path then flow else 0) - if (x, y) ∈ path then flow else 0) := by
  rw [h.residual, augment_apply, carried_of_nodup h.nodup, carried_of_nodup h.nodup]

theorem swap_not_mem {x y : Fin V} (he : (x, y) ∈ path) : (y, x) ∉ path := by
  intro hback
  have hup := (h.way _ he).up
  have hdown := (h.way _ hback).up
  dsimp only at hup hdown
  omega

theorem flow_pos : 0 < flow := by
  obtain ⟨e, he, rfl⟩ := h.critical
  exact (h.way e he).positive

theorem mem_tight {e : Fin V × Fin V} (he : e ∈ path) :
    e ∈ Tight (Positive st.residual) s t (level t) := by
  obtain ⟨hpositive, hup, hbefore, hbelow, hafter⟩ := h.way e he
  exact ⟨level e.1, level t - level e.2, hbefore, hpositive, hafter, by omega⟩

variable [IsOrderedAddMonoid K]

theorem nonneg (hst : ∀ x y, 0 ≤ st.residual x y) (x y : Fin V) :
    0 ≤ st'.residual x y := by
  rw [h.residual_apply]
  by_cases he : (x, y) ∈ path
  · rw [if_pos he, if_neg (h.swap_not_mem he), zero_sub, ← sub_eq_add_neg]
    exact sub_nonneg.mpr (h.le _ he)
  · rw [if_neg he, sub_zero]
    split
    · exact add_nonneg (hst x y) h.flow_pos.le
    · rw [add_zero]
      exact hst x y

theorem positive_of_positive {x y : Fin V}
    (he : Positive st'.residual x y) : Positive st.residual x y ∨ level x = level y + 1 := by
  by_cases hback : (y, x) ∈ path
  · exact .inr (h.way _ hback).up
  · rw [Positive, h.residual_apply, if_neg hback, zero_sub, ← sub_eq_add_neg] at he
    refine .inl (he.trans_le (sub_le_self _ ?_))
    split
    · exact h.flow_pos.le
    · exact le_rfl

theorem budget_lt {d : Nat}
    (hd : IsLeast {n | Steps (Positive st'.residual) s n t} d) :
    budget (Positive st'.residual) s t d < budget (Positive st.residual) s t (level t) := by
  obtain ⟨⟨u, v⟩, he, hcritical⟩ := h.critical
  refine LayeredWalks.budget_lt h.source rfl h.layered (fun x y => h.positive_of_positive) (h.mem_tight he) ?_ hd
  rw [Positive, h.residual_apply, if_pos he, if_neg (h.swap_not_mem he), hcritical, zero_sub, add_neg_cancel]
  exact lt_irrefl 0

end Augments

variable {capacity : Fin V → Fin V → K} {source sink : Int}

theorem endpoints_ne (h : endpoints? V source sink = some (s, t)) : s ≠ t := by
  unfold endpoints? at h
  split at h
  · split at h
    · cases h
    · next hne =>
      cases h
      exact hne
  · cases h

variable [IsOrderedAddMonoid K]

theorem budget_rounds (hc : ∀ x y, 0 ≤ capacity x y) (hends : endpoints? V source sink = some (s, t)) (n : Nat)
    (h : rounds capacity source sink n = some st) : (∀ x y, 0 ≤ st.residual x y) ∧ n ≤ V ^ 3 ∧ ∀ d,
    IsLeast {n | Steps (Positive st.residual) s n t} d → n + budget (Positive st.residual) s t d ≤ V ^ 3 := by
  induction n generalizing st with
  | zero =>
    cases h
    refine ⟨hc, Nat.zero_le _, fun d hd => ?_⟩
    have hle := budget_le hd
    rwa [Fintype.card_fin, ← Nat.zero_add (budget _ _ _ _)] at hle
  | succ n ih =>
    rw [rounds, hends] at h
    split at h
    · next s' t' before heq hbefore =>
      cases heq
      obtain ⟨hnonneg, -, hbudget⟩ := ih hbefore
      obtain ⟨level, path, flow, haugments⟩ := round_spec (endpoints_ne hends) h
      have hlevel := hbudget _ haugments.least
      obtain ⟨e, he, -⟩ := haugments.critical
      have hpos : 0 < (Tight (Positive before.residual) s t (level t)).ncard :=
        (Set.ncard_pos (Set.toFinite _)).mpr ⟨e, haugments.mem_tight he⟩
      refine ⟨haugments.nonneg hnonneg, ?_, fun d hd => ?_⟩
      · unfold budget at hlevel
        omega
      · have hlt := haugments.budget_lt hd
        omega
    · cases h

/-- The loop ends after at most as many rounds as the cube of the number of nodes. -/
theorem rounds_le (capacity : Fin V → Fin V → K) (hc : ∀ x y, 0 ≤ capacity x y) (source sink : Int) (n : Nat)
    (h : (rounds capacity source sink n).isSome) : n ≤ V * V * V := by
  obtain ⟨st, hst⟩ := Option.isSome_iff_exists.mp h
  cases hends : endpoints? V source sink with
  | some ends =>
    have hle := (budget_rounds hc hends n hst).2.1
    rwa [pow_three'] at hle
  | none =>
    cases n with
    | zero => exact Nat.zero_le _
    | succ n =>
      rw [rounds, hends] at hst
      cases hst

def sixNodes : Fin 6 → Fin 6 → Rat := fun i j =>
  mkRat (Int.ofNat (([[0, 16, 13, 0, 0, 0], [0, 0, 10, 12, 0, 0], [0, 4, 0, 0, 14, 0], [0, 0, 9, 0, 0, 20],
    [0, 0, 0, 7, 0, 4], [0, 0, 0, 0, 0, 0]].getD i []).getD j 0)) 3

theorem rounds_sixNodes : (rounds sixNodes 0 5 3).isSome ∧ 3 ≤ 6 * 6 * 6 := by
  have hthree : (rounds sixNodes 0 5 3).isSome := by decide +kernel
  exact ⟨hthree, rounds_le sixNodes (by decide +kernel) 0 5 3 hthree⟩

end

open NetworkFlow

variable {V : Nat} {K : Type} [AddCommGroup K] [LinearOrder K] {s t : Fin V} {st st' : State V K} {level : Fin V → Nat}
  {path : List (Fin V × Fin V)} {flow : K} {capacity : Fin V → Fin V → K} {source sink : Int}

theorem index?_coe (v : Fin V) : index? V (v : Int) = some v := by
  have h : (0 : Int) ≤ (v : Int) ∧ (v : Int) < V := ⟨Int.natCast_nonneg _, Int.ofNat_lt.mpr v.isLt⟩
  rw [index?, dif_pos h]
  rfl

theorem endpoints?_coe (hne : s ≠ t) : endpoints? V (s : Int) (t : Int) = some (s, t) := by
  simp only [endpoints?, index?_coe, if_neg hne]

theorem loop_rounds (hends : endpoints? V source sink = some (s, t)) (fuel n : Nat)
    (h : rounds capacity source sink n = some st) : ∃ m, rounds capacity source sink m = some (loop s t fuel st) ∧
    (round s t (loop s t fuel st) = none ∨ m = n + fuel) := by
  induction fuel generalizing n st with
  | zero => exact ⟨n, h, .inr rfl⟩
  | succ fuel ih =>
    rw [loop]
    split
    · next hnone => exact ⟨n, h, .inl hnone⟩
    · next next hsome =>
      have hnext : rounds capacity source sink (n + 1) = some next := by
        simp only [rounds, hends, h, hsome]
      obtain ⟨m, hm, hend⟩ := ih (n + 1) hnext
      exact ⟨m, hm, hend.imp_right fun heq => by omega⟩

variable [IsOrderedAddMonoid K]

theorem Augments.residualFlow (h : Augments s t st st' level path flow)
    (hst : Residual capacity s t st.residual st.maxFlow) : Residual capacity s t st'.residual st'.maxFlow where
  nonneg := h.nonneg hst.nonneg
  symm x y := by
    rw [h.residual_apply, h.residual_apply, ← hst.symm x y]
    abel
  balance x := by
    have hsent : ∀ y, capacity x y - st'.residual x y =
        (capacity x y - st.residual x y) + (carried flow path (x, y) - carried flow path (y, x)) := by
      intro y
      rw [h.residual, augment_apply]
      abel
    simp only [hsent, Finset.sum_add_distrib, hst.balance, h.isPath.balance, h.maxFlow]
    split <;> split <;> abel

theorem rounds_residual (hc : ∀ x y, 0 ≤ capacity x y) (hends : endpoints? V source sink = some (s, t)) (n : Nat)
    (h : rounds capacity source sink n = some st) : Residual capacity s t st.residual st.maxFlow := by
  induction n generalizing st with
  | zero =>
    cases h
    exact residual_self hc
  | succ n ih =>
    rw [rounds, hends] at h
    split at h
    · next s' t' before heq hbefore =>
      cases heq
      obtain ⟨level, path, flow, haugments⟩ := round_spec (endpoints_ne hends) h
      exact haugments.residualFlow (ih hbefore)
    · cases h

omit [IsOrderedAddMonoid K] in
theorem fordFulkerson_self (capacity : Fin V → Fin V → K) (s : Fin V) :
    fordFulkerson capacity (s : Int) (s : Int) = 0 := by
  have hends : endpoints? V (s : Int) (s : Int) = none := by
    simp only [endpoints?, index?_coe, if_true]
  rw [fordFulkerson, hends]

theorem isMaximum_fordFulkerson (hc : ∀ x y, 0 ≤ capacity x y) (hne : s ≠ t) :
    IsMaximum capacity s t (fordFulkerson capacity (s : Int) (t : Int)) := by
  have hends := endpoints?_coe hne
  rw [fordFulkerson, hends]
  have hstart : rounds capacity (s : Int) (t : Int) 0 = some (State.start capacity) := rfl
  obtain ⟨m, hm, hend⟩ := loop_rounds hends (V * V * V) 0 hstart
  have hstopped : round s t (loop s t (V * V * V) (State.start capacity)) = none := by
    rcases hend with hnone | hfuel
    · exact hnone
    · by_contra hsome
      obtain ⟨next, hnext⟩ := Option.ne_none_iff_exists'.mp hsome
      have hmore : rounds capacity (s : Int) (t : Int) (m + 1) = some next := by
        simp only [rounds, hends, hm, hnext]
      have hle := (budget_rounds hc hends (m + 1) hmore).2.1
      rw [pow_three'] at hle
      omega
  obtain ⟨S, hs, ht, hfull⟩ := round_none hne hstopped
  have hresidual := rounds_residual hc hends m hm
  have hzero : ∀ x ∈ S, ∀ y ∉ S, (loop s t (V * V * V) (State.start capacity)).residual x y = 0 :=
    fun x hx y hy => le_antisymm (not_lt.mp (hfull x hx y hy)) (hresidual.nonneg x y)
  exact hresidual.isMaximum hc hne hs ht hzero

/-- The value that `ford_fulkerson` returns is the maximum flow: some flow has it, some
cut has it for its capacity, and no flow has more. -/
theorem fordFulkerson_isMaximum (capacity : Fin V → Fin V → K) (hc : ∀ x y, 0 ≤ capacity x y) (source sink : Fin V)
    (hne : source ≠ sink) : IsMaximum capacity source sink (fordFulkerson capacity (source : Int) (sink : Int)) ∧
      ∀ f, IsFlow capacity source sink f → value source f ≤ fordFulkerson capacity (source : Int) (sink : Int) := by
  have hmaximum := isMaximum_fordFulkerson hc hne
  exact ⟨hmaximum, fun f hf => hmaximum.value_le hf⟩

theorem sixNodes_isMaximum : fordFulkerson sixNodes 0 5 = mkRat 23 3 ∧ IsMaximum sixNodes 0 5 (mkRat 23 3) := by
  have hvalue : fordFulkerson sixNodes 0 5 = mkRat 23 3 := by decide +kernel
  exact ⟨hvalue, hvalue ▸ (fordFulkerson_isMaximum sixNodes (by decide +kernel) 0 5 (by decide)).1⟩

end Logistics.FlowSolver
