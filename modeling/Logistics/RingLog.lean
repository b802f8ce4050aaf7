import Mathlib.Data.List.Nodup
import Mathlib.Data.List.Perm.Subperm
import Mathlib.Data.Nat.ModEq

namespace Logistics.RingLog

open List

variable {α : Type}

def Holds (N : Nat) (ring : Nat → α) (log : List α) (i : Nat) : Prop := log[i]? = some (ring (i % N))

variable {N i : Nat}

theorem mod_ne_of_window {j : Nat} (hij : i < j) (hj : j < i + N) : i % N ≠ j % N := by
  intro h
  have hd : N ∣ j - i := (Nat.modEq_iff_dvd' hij.le).mp h
  have := Nat.le_of_dvd (by omega) hd
  omega

variable {log : List α} {ring : Nat → α}

theorem Holds.append (h : Holds N ring log i) (x : α) : Holds N ring (log ++ [x]) i := by
  unfold Holds at h ⊢
  rw [getElem?_append_left (List.getElem?_eq_some_iff.mp h).1, h]

theorem Holds.update {j : Nat} (h : Holds N ring log i)
    (hne : i % N ≠ j % N) (x : α) : Holds N (Function.update ring (j % N) x) log i := by
  unfold Holds at h ⊢
  rw [Function.update_of_ne hne, h]

theorem holds_last (N : Nat) (ring : Nat → α) (log : List α) (x : α) (h : ring (log.length % N) = x) :
    Holds N ring (log ++ [x]) log.length := by
  simp [Holds, h]

def window (N : Nat) (ring : Nat → α) (lo hi : Nat) : List α := (range' lo (hi - lo)).map fun i => ring (i % N)

theorem window_eq_drop {lo : Nat} (hlo : lo ≤ log.length)
    (h : ∀ i, lo ≤ i → i < log.length → Holds N ring log i) : window N ring lo log.length = log.drop lo := by
  apply ext_getElem?
  intro k
  rw [window, getElem?_map, getElem?_drop]
  by_cases hk : k < log.length - lo
  · rw [getElem?_range' hk, h (lo + k) (by omega) (by omega)]
    simp
  · rw [getElem?_eq_none (by simp; omega), getElem?_eq_none (by omega)]
    rfl

/-- Entries read at distinct positions that make up a whole initial segment
are a permutation of that segment. -/
theorem perm_take {reads : List (Nat × α)} {n : Nat} (hn : n ≤ log.length)
    (hread : ∀ p ∈ reads, p.1 < n ∧ log[p.1]? = some p.2) (hnd : (reads.map Prod.fst).Nodup)
    (hlen : reads.length = n) : (reads.map Prod.snd).Perm (log.take n) := by
  have hsub : (reads.map Prod.fst).Subperm (range n) := by
    apply subperm_of_subset hnd
    intro i hi
    obtain ⟨p, hp, rfl⟩ := mem_map.mp hi
    exact mem_range.mpr (hread p hp).1
  have hperm : (reads.map Prod.fst).Perm (range n) := hsub.perm_of_length_le (by simp [hlen])
  have hl : (reads.map Prod.snd).map some = (reads.map Prod.fst).map (fun i => log[i]?) := by
    rw [map_map, map_map]
    exact map_congr_left fun p hp => (hread p hp).2.symm
  have hr : (log.take n).map some = (range n).map (fun i => log[i]?) := by
    apply ext_getElem?
    intro k
    by_cases hk : k < n
    · have hkl : k < log.length := by omega
      simp [hk, hkl]
    · rw [getElem?_eq_none (by simp; omega), getElem?_eq_none (by simp; omega)]
  have h := hperm.map (fun i => log[i]?)
  rw [← hl, ← hr] at h
  exact (map_perm_map_iff (Option.some_injective α)).mp h

end Logistics.RingLog
