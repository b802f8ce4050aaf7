import Logistics.KeyedTable
import Mathlib.Data.List.Induction

namespace Logistics.RowVersions

open KeyedTable List

variable {ρ κ : Type} [DecidableEq κ] {key : ρ → κ}

/-- What a transaction sees of a table: the committed rows, with its own new
versions written over them in the order in which it made them. -/
def overlay (t : Table key) (own : List ρ) : Table key := own.foldl Table.put t

def latest (key : ρ → κ) (own : List ρ) (k : κ) : Option ρ := own.reverse.find? fun r => key r = k

theorem find?_put (t : Table key) (r : ρ) (k : κ) : (t.put r).find? k = if k = key r then some r else t.find? k := by
  rw [Table.put]
  split
  · next h =>
    obtain ⟨s, hs, hk⟩ := mem_map.mp h
    rw [Table.find?_update]
    split
    · next he => rw [he, Table.find?_eq_some.mpr ⟨hs, hk⟩, Option.map_some, if_pos hk]
    · rfl
  · split
    · next he => exact Table.find?_eq_some.mpr ⟨mem_append_right _ (mem_singleton_self r), he.symm⟩
    · next he =>
      apply Option.ext
      intro s
      rw [Table.find?_eq_some, Table.find?_eq_some]
      constructor
      · rintro ⟨hs, rfl⟩
        rcases mem_append.mp hs with hs | hs
        · exact ⟨hs, rfl⟩
        · rw [mem_singleton.mp hs] at he
          exact absurd rfl he
      · rintro ⟨hs, rfl⟩
        exact ⟨mem_append_left _ hs, rfl⟩

theorem overlay_append (t : Table key) (own new : List ρ) :
    overlay t (own ++ new) = overlay (overlay t own) new := foldl_append

theorem find?_overlay (t : Table key) (own : List ρ) (k : κ) :
    (overlay t own).find? k = (latest key own k).or (t.find? k) := by
  induction own using List.reverseRecOn with
  | nil => rfl
  | append_singleton own r ih =>
    rw [overlay_append]
    change ((overlay t own).put r).find? k = _
    rw [find?_put, ih]
    by_cases h : k = key r
    · simp [latest, h]
    · have h' : key r ≠ k := fun he => h he.symm
      simp [latest, h, h']

variable {k : κ}

theorem latest_eq_none {own : List ρ} : latest key own k = none ↔ k ∉ own.map key := by
  simp [latest]

variable {r : ρ}

theorem mem_of_latest {own : List ρ} (h : latest key own k = some r) : r ∈ own ∧ key r = k :=
  ⟨mem_reverse.mp (mem_of_find?_eq_some h), by simpa using find?_some h⟩

variable {f : ρ → ρ}

theorem update_eq_put (t : Table key) (h : t.find? k = some r)
    (hf : ∀ r, key (f r) = key r) : t.update k f hf = t.put (f r) := by
  obtain ⟨hr, rfl⟩ := Table.find?_eq_some.mp h
  have hmem : key (f r) ∈ t.rows.map key := by
    rw [hf]
    exact mem_map_of_mem hr
  rw [Table.put, dif_pos hmem]
  apply Table.ext_rows
  simp only [Table.update, updateRows, hf]
  apply map_congr_left
  intro s hs
  by_cases hk : key s = key r
  · rw [if_pos hk, if_pos hk, if_pos hk, t.unique hs hr hk]
  · rw [if_neg hk, if_neg hk]

theorem update_eq_self (t : Table key) (h : t.find? k = none) (hf : ∀ r, key (f r) = key r) : t.update k f hf = t :=
  Table.ext_rows (updateRows_eq_self (Table.find?_eq_none.mp h))

end Logistics.RowVersions
