import Mathlib.Algebra.Order.Field.Basic
import Mathlib.Tactic.Linarith

namespace Logistics.TokenBucket

variable {K : Type} [Field K] [LinearOrder K] [IsStrictOrderedRing K]

structure Limit (K : Type) [Field K] [LinearOrder K] [IsStrictOrderedRing K] where
  capacity : K
  rate : K
  one_le : 1 ≤ capacity
  rate_nonneg : 0 ≤ rate

structure Bucket (K : Type) where
  tokens : K
  lastRefill : K

variable (l : Limit K) (b : Bucket K) (now : K)

def full : Bucket K := ⟨l.capacity, now⟩

def refill : Bucket K := ⟨min l.capacity (b.tokens + (now - b.lastRefill) * l.rate), now⟩

def spend : Bool × Bucket K := if b.tokens < 1 then (false, b) else (true, { b with tokens := b.tokens - 1 })

structure Valid : Prop where
  nonneg : 0 ≤ b.tokens
  le_capacity : b.tokens ≤ l.capacity

variable {l b now} {start stop : K} {n : Nat}

theorem elapsed_nonneg (h : b.lastRefill ≤ now) : 0 ≤ (now - b.lastRefill) * l.rate :=
  mul_nonneg (sub_nonneg.mpr h) l.rate_nonneg

theorem valid_full (l : Limit K) (now : K) : Valid l (full l now) := ⟨zero_le_one.trans l.one_le, le_rfl⟩

theorem Valid.refill (hvalid : Valid l b) (h : b.lastRefill ≤ now) : Valid l (refill l b now) where
  nonneg := le_min (zero_le_one.trans l.one_le) (add_nonneg hvalid.nonneg (elapsed_nonneg h))
  le_capacity := min_le_left _ _

theorem Valid.spend (hvalid : Valid l b) : Valid l (spend b).2 := by
  rw [TokenBucket.spend]
  split
  · exact hvalid
  · next hone => exact ⟨sub_nonneg.mpr (not_lt.mp hone), (sub_le_self _ zero_le_one).trans hvalid.le_capacity⟩

omit [IsStrictOrderedRing K] in
theorem lastRefill_spend (b : Bucket K) : (spend b).2.lastRefill = b.lastRefill := by
  rw [spend]
  split <;> rfl

theorem refill_eq_full (h : l.capacity ≤ b.tokens + (now - b.lastRefill) * l.rate) : refill l b now = full l now := by
  rw [refill, min_eq_left h, full]

variable (l start stop) in
structure Spent (b : Bucket K) (n : Nat) : Prop where
  valid : Valid l b
  le : (n : K) ≤ l.capacity + (stop - start) * l.rate
  before : b.lastRefill < start → n = 0
  during : start ≤ b.lastRefill → b.lastRefill ≤ stop →
    (n : K) + b.tokens ≤ l.capacity + (b.lastRefill - start) * l.rate

theorem spent_full (hwindow : start ≤ stop) (l : Limit K) (now : K) : Spent l start stop (full l now) 0 := by
  have hcapacity := (valid_full l now).nonneg
  refine ⟨valid_full l now, ?_, fun _ => rfl, fun hstart _ => ?_⟩
  · rw [Nat.cast_zero]
    exact add_nonneg hcapacity (mul_nonneg (sub_nonneg.mpr hwindow) l.rate_nonneg)
  · rw [Nat.cast_zero, zero_add]
    exact le_add_of_nonneg_right (mul_nonneg (sub_nonneg.mpr hstart) l.rate_nonneg)

theorem Spent.refill (hspent : Spent l start stop b n) (h : b.lastRefill ≤ now) :
    Spent l start stop (refill l b now) n := by
  refine ⟨hspent.valid.refill h, hspent.le, fun hstart => hspent.before (h.trans_lt hstart), fun hstart hstop => ?_⟩
  rcases lt_or_ge b.lastRefill start with hbefore | hsince
  · rw [hspent.before hbefore, Nat.cast_zero, zero_add]
    exact (min_le_left _ _).trans (le_add_of_nonneg_right (mul_nonneg (sub_nonneg.mpr hstart) l.rate_nonneg))
  · have hduring := hspent.during hsince (h.trans hstop)
    have hlevel : (TokenBucket.refill l b now).tokens ≤ b.tokens + (now - b.lastRefill) * l.rate := min_le_right _ _
    change (n : K) + (TokenBucket.refill l b now).tokens ≤ l.capacity + (now - start) * l.rate
    linarith

variable (start stop) in
def inWindow (t : K) : Bool := start ≤ t ∧ t ≤ stop

theorem Spent.spend (hspent : Spent l start stop b n) :
    Spent l start stop (spend b).2 (n + ((spend b).1 && inWindow start stop b.lastRefill).toNat) := by
  have hvalid := hspent.valid.spend
  rw [TokenBucket.spend] at hvalid ⊢
  split at hvalid
  · next hnone =>
    rw [if_pos hnone]
    exact hspent
  · next hone =>
    rw [if_neg hone, Bool.true_and]
    cases hin : inWindow start stop b.lastRefill with
    | false =>
      refine ⟨hvalid, hspent.le, hspent.before, fun hstart hstop => ?_⟩
      exact absurd (decide_eq_true ⟨hstart, hstop⟩) (Bool.eq_false_iff.mp hin)
    | true =>
      obtain ⟨hstart, hstop⟩ := of_decide_eq_true hin
      have hduring := hspent.during hstart hstop
      have hmore : (b.lastRefill - start) * l.rate ≤ (stop - start) * l.rate :=
        mul_le_mul_of_nonneg_right (sub_le_sub_right hstop start) l.rate_nonneg
      have hcast : ((n + true.toNat : Nat) : K) = n + 1 := Nat.cast_succ n
      refine ⟨hvalid, ?_, fun hbefore => absurd hbefore (not_lt.mpr hstart), fun _ _ => ?_⟩
      · rw [hcast]
        linarith
      · rw [hcast]
        linarith

end Logistics.TokenBucket
