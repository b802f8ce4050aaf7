import Mathlib.Data.List.Nodup
import Mathlib.Algebra.BigOperators.Group.List.Basic
import Mathlib.Tactic.Abel

namespace Logistics.KeyedTable

open List

/-- A table with a primary key: no two rows have the same key. -/
structure Table {ρ κ : Type} (key : ρ → κ) where
  rows : List ρ
  nodup : (rows.map key).Nodup

variable {ρ κ : Type} {key : ρ → κ}

theorem Table.ext_rows {s t : Table key} (h : s.rows = t.rows) : s = t := by
  cases t
  cases h
  rfl

def Table.empty : Table key := ⟨[], nodup_nil⟩

variable {r : ρ}

theorem Table.unique (t : Table key) {s : ρ} (hr : r ∈ t.rows) (hs : s ∈ t.rows) (h : key r = key s) : r = s :=
  inj_on_of_nodup_map t.nodup hr hs h

def Table.insert (t : Table key) (r : ρ) (h : key r ∉ t.rows.map key) : Table key :=
  ⟨t.rows ++ [r], by
    rw [map_append, map_singleton]
    exact nodup_append_comm.mp (nodup_cons.mpr ⟨h, t.nodup⟩)⟩

variable [DecidableEq κ]

def Table.find? (t : Table key) (k : κ) : Option ρ := t.rows.find? fun r => key r = k

def updateRows (key : ρ → κ) (k : κ) (f : ρ → ρ) (rows : List ρ) : List ρ :=
  rows.map fun r => if key r = k then f r else r

def Table.update (t : Table key) (k : κ) (f : ρ → ρ) (hf : ∀ r, key (f r) = key r) : Table key :=
  ⟨updateRows key k f t.rows, by
    have he : (updateRows key k f t.rows).map key = t.rows.map key := by
      rw [updateRows, map_map]
      refine map_congr_left fun r _ => ?_
      rw [Function.comp_apply]
      split
      · exact hf r
      · rfl
    rw [he]
    exact t.nodup⟩

def Table.put (t : Table key) (r : ρ) : Table key :=
  if h : key r ∈ t.rows.map key then
    t.update (key r) (fun s => if key s = key r then r else s) fun s => by
      split
      · next he => exact he.symm
      · rfl
  else t.insert r h

variable {k : κ}

theorem Table.find?_eq_some {t : Table key} : t.find? k = some r ↔ r ∈ t.rows ∧ key r = k := by
  constructor
  · intro h
    exact ⟨mem_of_find?_eq_some h, by simpa using find?_some h⟩
  · rintro ⟨hr, rfl⟩
    cases h : t.find? (key r) with
    | none => simpa using find?_eq_none.mp h r hr
    | some s =>
      have hk : key s = key r := by simpa using find?_some h
      rw [t.unique (mem_of_find?_eq_some h) hr hk]

theorem Table.find?_eq_none {t : Table key} : t.find? k = none ↔ ∀ r ∈ t.rows, key r ≠ k := by
  simp [Table.find?]

variable {rows : List ρ}

theorem mem_updateRows {f : ρ → ρ} {s : ρ} :
    s ∈ updateRows key k f rows ↔ (s ∈ rows ∧ key s ≠ k) ∨ ∃ r ∈ rows, key r = k ∧ f r = s := by
  simp only [updateRows, mem_map]
  constructor
  · rintro ⟨r, hr, he⟩
    by_cases hk : key r = k
    · rw [if_pos hk] at he
      exact .inr ⟨r, hr, hk, he⟩
    · rw [if_neg hk] at he
      subst he
      exact .inl ⟨hr, hk⟩
  · rintro (⟨hs, hk⟩ | ⟨r, hr, hk, he⟩)
    · exact ⟨s, hs, if_neg hk⟩
    · exact ⟨r, hr, by rw [if_pos hk, he]⟩

theorem Table.update_update (t : Table key) (k : κ) (f g : ρ → ρ) (hf : ∀ r, key (f r) = key r)
    (hg : ∀ r, key (g r) = key r) :
    (t.update k f hf).update k g hg = t.update k (fun r => g (f r)) fun r => (hg _).trans (hf r) := by
  apply Table.ext_rows
  simp only [Table.update, updateRows, map_map]
  refine map_congr_left fun r _ => ?_
  by_cases hk : key r = k
  · simp [hk, hf]
  · simp [hk]

theorem updateRows_eq_self {f : ρ → ρ} (h : ∀ r ∈ rows, key r ≠ k) : updateRows key k f rows = rows := by
  conv_rhs => rw [← map_id rows]
  exact map_congr_left fun r hr => if_neg (h r hr)

theorem Table.update_insert (t : Table key) (r : ρ) (h : key r ∉ t.rows.map key) (f : ρ → ρ)
    (hf : ∀ r, key (f r) = key r) : (t.insert r h).update (key r) f hf = t.insert (f r) (by rwa [hf]) := by
  have hold : updateRows key (key r) f t.rows = t.rows :=
    updateRows_eq_self fun s hs he => h (mem_map.mpr ⟨s, hs, he⟩)
  unfold updateRows at hold
  simp [Table.update, updateRows, Table.insert, hold]

theorem Table.sum_update {M : Type} [AddCommGroup M] (t : Table key) (hr : r ∈ t.rows) (f : ρ → ρ)
    (hf : ∀ r, key (f r) = key r) (w : ρ → M) :
    ((t.update (key r) f hf).rows.map w).sum = (t.rows.map w).sum - w r + w (f r) := by
  obtain ⟨before, after, hrows⟩ := append_of_mem hr
  have hnodup := t.nodup
  rw [hrows, map_append, map_cons, nodup_middle, nodup_cons, mem_append, not_or] at hnodup
  have hbefore : updateRows key (key r) f before = before :=
    updateRows_eq_self fun s hs he => hnodup.1.1 (he ▸ mem_map_of_mem hs)
  have hafter : updateRows key (key r) f after = after :=
    updateRows_eq_self fun s hs he => hnodup.1.2 (he ▸ mem_map_of_mem hs)
  have hupdate : (t.update (key r) f hf).rows = before ++ f r :: after := by
    change updateRows key (key r) f t.rows = _
    rw [hrows]
    unfold updateRows at hbefore hafter ⊢
    rw [map_append, map_cons, if_pos rfl, hbefore, hafter]
  rw [hupdate, hrows]
  simp only [map_append, map_cons, sum_append, sum_cons]
  abel

theorem Table.find?_update (t : Table key) (k j : κ) (f : ρ → ρ) (hf : ∀ r, key (f r) = key r) :
    (t.update k f hf).find? j = if j = k then (t.find? j).map f else t.find? j := by
  apply Option.ext
  intro s
  rw [Table.find?_eq_some, Table.update, mem_updateRows]
  by_cases hj : j = k
  · subst hj
    simp only [if_true, Option.map_eq_some_iff, Table.find?_eq_some]
    constructor
    · rintro ⟨⟨_, hne⟩ | ⟨r, hr, hk, rfl⟩, hs⟩
      · exact absurd hs hne
      · exact ⟨r, ⟨hr, hk⟩, rfl⟩
    · rintro ⟨r, ⟨hr, hk⟩, rfl⟩
      exact ⟨.inr ⟨r, hr, hk, rfl⟩, by rw [hf, hk]⟩
  · rw [if_neg hj, Table.find?_eq_some]
    constructor
    · rintro ⟨⟨hs, _⟩ | ⟨r, hr, hk, rfl⟩, hs'⟩
      · exact ⟨hs, hs'⟩
      · exact absurd (by rw [← hs', hf, hk]) hj
    · rintro ⟨hs, rfl⟩
      exact ⟨.inl ⟨hs, hj⟩, rfl⟩

def Table.erase (t : Table key) (k : κ) : Table key :=
  ⟨t.rows.filter fun r => key r ≠ k, t.nodup.sublist (filter_sublist.map key)⟩

theorem Table.find?_erase (t : Table key) (k j : κ) : (t.erase k).find? j = if j = k then none else t.find? j := by
  apply Option.ext
  intro s
  rw [Table.find?_eq_some, Table.erase, mem_filter]
  by_cases hj : j = k
  · subst hj
    simp only [if_true, reduceCtorEq, iff_false]
    rintro ⟨⟨-, hne⟩, he⟩
    exact absurd he (by simpa using hne)
  · rw [if_neg hj, Table.find?_eq_some]
    constructor
    · rintro ⟨⟨hs, -⟩, he⟩
      exact ⟨hs, he⟩
    · rintro ⟨hs, rfl⟩
      exact ⟨⟨hs, by simpa using hj⟩, rfl⟩

end Logistics.KeyedTable
