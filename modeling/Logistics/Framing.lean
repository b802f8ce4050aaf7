import Mathlib.Data.List.Induction

namespace Logistics.Framing

open List

variable {α : Type} {n : Nat} {l m : List α}

def blocks (n : Nat) (l : List α) : List (List α) := (range (l.length / n)).map fun k => (l.drop (k * n)).take n

def remainder (n : Nat) (l : List α) : List α := l.drop (l.length / n * n)

@[simp] theorem blocks_nil : blocks n ([] : List α) = [] := by
  rw [blocks, length_nil, Nat.zero_div, range_zero, map_nil]

@[simp] theorem remainder_nil : remainder n ([] : List α) = [] := drop_nil

@[simp] theorem length_remainder : (remainder n l).length = l.length % n := by
  rw [remainder, length_drop, Nat.mod_eq_sub, Nat.mul_comm]

theorem block_append {k : Nat} (hk : k ∈ range (l.length / n)) :
    ((l ++ m).drop (k * n)).take n = (l.drop (k * n)).take n := by
  have hlen : k * n + n ≤ l.length :=
    calc k * n + n = (k + 1) * n := (Nat.succ_mul k n).symm
      _ ≤ l.length / n * n := Nat.mul_le_mul_right n (mem_range.mp hk)
      _ ≤ l.length := Nat.div_mul_le_self _ _
  rw [drop_append_of_le_length (by omega), take_append_of_le_length]
  rw [length_drop]
  omega

theorem blocks_of_div_eq (h : (l ++ m).length / n = l.length / n) : blocks n (l ++ m) = blocks n l := by
  rw [blocks, h]
  exact map_congr_left fun k hk => block_append hk

theorem remainder_append_of_div_eq (h : (l ++ m).length / n = l.length / n) :
    remainder n (l ++ m) = remainder n l ++ m := by
  rw [remainder, h]
  exact drop_append_of_le_length (Nat.div_mul_le_self _ _)

theorem blocks_isPrefix (l m : List α) : blocks n l <+: blocks n (l ++ m) := by
  have hle : l.length / n ≤ (l ++ m).length / n := Nat.div_le_div_right (by rw [length_append]; omega)
  have htake : range (l.length / n) = (range ((l ++ m).length / n)).take (l.length / n) := by
    rw [take_range, Nat.min_eq_left hle]
  have hblocks : blocks n l = (range (l.length / n)).map fun k => ((l ++ m).drop (k * n)).take n :=
    map_congr_left fun k hk => (block_append hk).symm
  rw [hblocks, htake, map_take]
  exact take_prefix _ _

theorem blocks_append_of_full (hn : 0 < n) (h : (remainder n l ++ m).length = n) :
    blocks n (l ++ m) = blocks n l ++ [remainder n l ++ m] := by
  have hdiv : (l ++ m).length / n = l.length / n + 1 := by
    rw [length_append, length_remainder] at h
    rw [length_append, ← Nat.div_add_mod l.length n, Nat.add_assoc, h, Nat.mul_add_div hn, Nat.mul_add_div hn,
      Nat.div_self hn, Nat.mod_div_self, Nat.add_zero]
  rw [blocks, hdiv, range_succ, map_append, map_singleton]
  congr 1
  · exact map_congr_left fun k hk => block_append hk
  · rw [drop_append_of_le_length (Nat.div_mul_le_self _ _)]
    exact congrArg (· :: []) (take_of_length_le (Nat.le_of_eq h))

theorem remainder_append_of_full (h : (remainder n l ++ m).length = n) : remainder n (l ++ m) = [] := by
  rw [← length_eq_zero_iff, length_remainder, length_append]
  rw [length_append, length_remainder] at h
  rw [← Nat.div_add_mod l.length n, Nat.add_assoc, h, Nat.mul_add_mod, Nat.mod_self]

structure Tracks (n : Nat) (stream : List α) (out : List (List α)) (pending : List α) : Prop where
  out_eq : out = blocks n stream
  pending_eq : pending = remainder n stream

variable {stream pending : List α} {out : List (List α)}

theorem tracks_nil : Tracks n ([] : List α) [] [] := ⟨blocks_nil.symm, remainder_nil.symm⟩

theorem Tracks.more (h : Tracks n stream out pending) (hlt : (pending ++ m).length < n) :
    Tracks n (stream ++ m) out (pending ++ m) := by
  have hdiv : (stream ++ m).length / n = stream.length / n := by
    rw [h.pending_eq, length_append, length_remainder] at hlt
    rw [length_append, ← Nat.div_add_mod stream.length n, Nat.add_assoc, Nat.mul_add_div (by omega),
      Nat.mul_add_div (by omega), Nat.div_eq_of_lt hlt, Nat.mod_div_self]
  exact ⟨h.out_eq.trans (blocks_of_div_eq hdiv).symm,
    (congrArg (· ++ m) h.pending_eq).trans (remainder_append_of_div_eq hdiv).symm⟩

theorem Tracks.full (h : Tracks n stream out pending) (hn : 0 < n) (hlen : (pending ++ m).length = n) :
    Tracks n (stream ++ m) (out ++ [pending ++ m]) [] := by
  rw [h.pending_eq] at hlen ⊢
  exact ⟨by rw [blocks_append_of_full hn hlen, h.out_eq], (remainder_append_of_full hlen).symm⟩

theorem tracks_flatten (hn : 0 < n) (frames : List (List α)) (h : ∀ frame ∈ frames, frame.length = n) :
    Tracks n frames.flatten frames [] := by
  induction frames using List.reverseRecOn with
  | nil => exact tracks_nil
  | append_singleton frames frame ih =>
    rw [flatten_append, flatten_singleton]
    have hlast : frame.length = n := h frame (mem_append_right frames (mem_singleton.mpr rfl))
    exact (ih fun f hf => h f (mem_append_left _ hf)).full hn hlast

end Logistics.Framing
