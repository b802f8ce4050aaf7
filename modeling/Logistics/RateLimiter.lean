import Mathlib.Data.List.Induction
import Logistics.TokenBucket

namespace Logistics.RateLimiter

open TokenBucket List Function

variable {K : Type}

inductive Event (K : Type)
  | allow (now : K) (clientIP : String)
  | prune (now : K)

def Event.time : Event K → K
  | .allow now _ => now
  | .prune now => now

section Clock

variable [LE K] {events : List (Event K)} {e : Event K} {t : K}

def Clock (events : List (Event K)) : Prop := (events.map Event.time).Pairwise (· ≤ ·)

def Past (events : List (Event K)) (t : K) : Prop := ∀ e ∈ events, e.time ≤ t

theorem past_append : Past (events ++ [e]) t ↔ Past events t ∧ e.time ≤ t :=
  forall_mem_append.trans (and_congr_right fun _ => forall_mem_singleton)

theorem clock_induction {P : List (Event K) → Prop} (hclock : Clock events) (hnil : P [])
    (hstep : ∀ events e, Clock events → Past events e.time → P events → P (events ++ [e])) : P events := by
  induction events using List.reverseRecOn with
  | nil => exact hnil
  | append_singleton events e ih =>
    rw [Clock, map_append, pairwise_append] at hclock
    refine hstep events e hclock.1 (fun e' he' => ?_) (ih hclock.1)
    exact hclock.2.2 _ (mem_map_of_mem he') _ (mem_singleton.mpr rfl)

theorem exists_past {K : Type} [LinearOrder K] [Nonempty K] (events : List (Event K)) : ∃ t, Past events t := by
  induction events with
  | nil => exact ⟨Classical.arbitrary K, fun e he => absurd he not_mem_nil⟩
  | cons e events ih =>
    obtain ⟨t, ht⟩ := ih
    exact ⟨max e.time t, forall_mem_cons.mpr ⟨le_max_left _ _, fun e' he' => (ht e' he').trans (le_max_right _ _)⟩⟩

end Clock

variable [Field K] [LinearOrder K] [IsStrictOrderedRing K]

/-- The arguments of `NewRateLimiter`. Times and tokens are exact numbers. -/
structure Config (K : Type) [Field K] [LinearOrder K] [IsStrictOrderedRing K] where
  maxRequests : Nat
  interval : K
  one_le : 1 ≤ maxRequests
  interval_pos : 0 < interval

abbrev Buckets (K : Type) := String → Option (Bucket K)

variable (cfg : Config K)

def maxTokens : K := cfg.maxRequests

def allow (now : K) (buckets : Buckets K) (clientIP : String) : Bool × Buckets K :=
  match buckets clientIP with
  | none => (true, update buckets clientIP (some ⟨maxTokens cfg - 1, now⟩))
  | some bucket =>
    let elapsed := now - bucket.lastRefill
    let refillAmount := elapsed / cfg.interval * maxTokens cfg
    let tokens := bucket.tokens + refillAmount
    let tokens := if maxTokens cfg < tokens then maxTokens cfg else tokens
    if tokens < 1 then (false, update buckets clientIP (some ⟨tokens, now⟩))
    else (true, update buckets clientIP (some ⟨tokens - 1, now⟩))

def pruneStaleEntries (now : K) (buckets : Buckets K) : Buckets K := fun ip =>
  let staleThreshold := now - 2 * cfg.interval
  match buckets ip with
  | none => none
  | some bucket => if bucket.lastRefill < staleThreshold then none else some bucket

structure Answer (K : Type) where
  clientIP : String
  time : K
  granted : Bool
  deriving DecidableEq

structure Limiter (K : Type) where
  buckets : Buckets K
  answers : List (Answer K)

def step (s : Limiter K) : Event K → Limiter K
  | .allow now clientIP =>
    ⟨(allow cfg now s.buckets clientIP).2, s.answers ++ [⟨clientIP, now, (allow cfg now s.buckets clientIP).1⟩]⟩
  | .prune now => { s with buckets := pruneStaleEntries cfg now s.buckets }

def run (events : List (Event K)) : Limiter K := events.foldl (step cfg) ⟨fun _ => none, []⟩

def isAllow : Event K → Bool
  | .allow _ _ => true
  | .prune _ => false

def unpruned (events : List (Event K)) : List (Event K) := events.filter isAllow

def granted (answers : List (Answer K)) (clientIP : String) (start stop : K) : Nat :=
  answers.countP fun a => a.clientIP = clientIP ∧ (a.granted && inWindow start stop a.time) = true

def limit : Limit K where
  capacity := maxTokens cfg
  rate := maxTokens cfg / cfg.interval
  one_le := Nat.one_le_cast.mpr cfg.one_le
  rate_nonneg := div_nonneg (Nat.cast_nonneg _) cfg.interval_pos.le

def viewAt (buckets : Buckets K) (clientIP : String) (t : K) : Bucket K :=
  match buckets clientIP with
  | none => full (limit cfg) t
  | some bucket => refill (limit cfg) bucket t

variable {cfg} {buckets : Buckets K} {now t : K} {clientIP ip : String}

theorem tokens_eq (bucket : Bucket K) :
    (if maxTokens cfg < bucket.tokens + (now - bucket.lastRefill) / cfg.interval * maxTokens cfg then maxTokens cfg
      else bucket.tokens + (now - bucket.lastRefill) / cfg.interval * maxTokens cfg) =
      (refill (limit cfg) bucket now).tokens := by
  have hrate : (now - bucket.lastRefill) / cfg.interval * maxTokens cfg =
      (now - bucket.lastRefill) * (limit cfg).rate := div_mul_eq_mul_div₀ _ _ _ |>.trans (mul_div_assoc _ _ _)
  rw [hrate]
  split
  · next hlt => exact (min_eq_left hlt.le).symm
  · next hle => exact (min_eq_right (not_lt.mp hle)).symm

theorem allow_eq (now : K) (buckets : Buckets K) (clientIP : String) :
    allow cfg now buckets clientIP = ((spend (viewAt cfg buckets clientIP now)).1,
      update buckets clientIP (some (spend (viewAt cfg buckets clientIP now)).2)) := by
  rw [allow, viewAt]
  cases buckets clientIP with
  | none =>
    have hone : ¬ (full (limit cfg) now).tokens < 1 := not_lt.mpr (limit cfg).one_le
    simp only [spend, if_neg hone]
    rfl
  | some bucket =>
    dsimp only
    rw [tokens_eq, spend]
    split <;> rfl

theorem buckets_allow (now : K) (buckets : Buckets K) (clientIP ip : String) : (allow cfg now buckets clientIP).2 ip =
    if ip = clientIP then some (spend (viewAt cfg buckets clientIP now)).2 else buckets ip := by
  rw [allow_eq]
  exact update_apply _ _ _ _

theorem viewAt_allow (now t : K) (buckets : Buckets K) (clientIP ip : String) :
    viewAt cfg (allow cfg now buckets clientIP).2 ip t = if ip = clientIP then refill (limit cfg)
    (spend (viewAt cfg buckets clientIP now)).2 t else viewAt cfg buckets ip t := by
  rw [viewAt, buckets_allow]
  by_cases hip : ip = clientIP
  · rw [if_pos hip, if_pos hip]
  · rw [if_neg hip, if_neg hip, viewAt]

theorem lastRefill_viewAt (buckets : Buckets K) (clientIP : String) (t : K) :
    (viewAt cfg buckets clientIP t).lastRefill = t := by
  rw [viewAt]
  split <;> rfl

variable (cfg) in
def Kept (buckets : Buckets K) (now : K) : Prop :=
  ∀ clientIP bucket, buckets clientIP = some bucket → Valid (limit cfg) bucket ∧ bucket.lastRefill ≤ now

theorem Kept.mono (h : Kept cfg buckets now) (hle : now ≤ t) : Kept cfg buckets t :=
  fun clientIP bucket hbucket => ⟨(h clientIP bucket hbucket).1, (h clientIP bucket hbucket).2.trans hle⟩

theorem Kept.valid_viewAt (h : Kept cfg buckets now) (clientIP : String) :
    Valid (limit cfg) (viewAt cfg buckets clientIP now) := by
  rw [viewAt]
  split
  · exact valid_full _ _
  · next bucket hbucket => exact (h clientIP bucket hbucket).1.refill (h clientIP bucket hbucket).2

theorem Kept.allow (h : Kept cfg buckets now) (clientIP : String) :
    Kept cfg (allow cfg now buckets clientIP).2 now := by
  intro ip bucket hbucket
  rw [buckets_allow] at hbucket
  split at hbucket
  · obtain rfl := Option.some.inj hbucket
    exact ⟨(h.valid_viewAt clientIP).spend, by rw [lastRefill_spend, lastRefill_viewAt]⟩
  · exact h ip bucket hbucket

variable {bucket : Bucket K}

theorem buckets_of_prune (h : pruneStaleEntries cfg now buckets ip = some bucket) : buckets ip = some bucket := by
  rw [pruneStaleEntries] at h
  split at h
  · cases h
  · next hbucket =>
    split at h
    · cases h
    · exact hbucket.trans h

theorem Kept.prune (h : Kept cfg buckets now) : Kept cfg (pruneStaleEntries cfg now buckets) now :=
  fun ip bucket hbucket => h ip bucket (buckets_of_prune hbucket)

theorem full_of_stale (hvalid : Valid (limit cfg) bucket) (hlater : now ≤ t)
    (hstale : bucket.lastRefill < now - 2 * cfg.interval) : refill (limit cfg) bucket t = full (limit cfg) t := by
  have hpos := cfg.interval_pos
  have helapsed : cfg.interval ≤ t - bucket.lastRefill := by linarith
  have hcapacity : cfg.interval * (limit cfg).rate = (limit cfg).capacity := mul_div_cancel₀ _ hpos.ne'
  have hmore := mul_le_mul_of_nonneg_right helapsed (limit cfg).rate_nonneg
  rw [hcapacity] at hmore
  exact refill_eq_full (hmore.trans (le_add_of_nonneg_left hvalid.nonneg))

theorem viewAt_prune (h : Kept cfg buckets now) (hlater : now ≤ t) (ip : String) :
    viewAt cfg (pruneStaleEntries cfg now buckets) ip t = viewAt cfg buckets ip t := by
  rw [viewAt, viewAt, pruneStaleEntries]
  cases hbucket : buckets ip with
  | none => rfl
  | some bucket =>
    by_cases hstale : bucket.lastRefill < now - 2 * cfg.interval
    · simp only [if_pos hstale]
      exact (full_of_stale (h ip bucket hbucket).1 hlater hstale).symm
    · simp only [if_neg hstale]

theorem run_append (events : List (Event K)) (e : Event K) : run cfg (events ++ [e]) = step cfg (run cfg events) e :=
  foldl_append

variable {events : List (Event K)}

theorem kept_run (hclock : Clock events) : ∀ t, Past events t → Kept cfg (run cfg events).buckets t := by
  refine clock_induction (P := fun events => ∀ t, Past events t → Kept cfg (run cfg events).buckets t) hclock ?_ ?_
  · intro t _ ip bucket hbucket
    cases hbucket
  · intro events e _ hpast ih t ht
    rw [run_append]
    have hkept := ih e.time hpast
    have hle := (past_append.mp ht).2
    cases e with
    | allow now clientIP => exact (hkept.allow clientIP).mono hle
    | prune now => exact hkept.prune.mono hle

variable (cfg) in
def Alike (events : List (Event K)) (s s' : Limiter K) : Prop :=
  s.answers = s'.answers ∧ ∀ t, Past events t → ∀ ip, viewAt cfg s.buckets ip t = viewAt cfg s'.buckets ip t

theorem alike_run (hclock : Clock events) : Alike cfg events (run cfg events) (run cfg (unpruned events)) := by
  refine clock_induction (P := fun events => Alike cfg events (run cfg events) (run cfg (unpruned events))) hclock
    ⟨rfl, fun _ _ _ => rfl⟩ ?_
  intro events e hclock hpast ih
  rw [run_append, unpruned, filter_append]
  cases e with
  | allow now clientIP =>
    change Alike cfg _ _ (run cfg (unpruned events ++ [.allow now clientIP]))
    rw [run_append]
    have hview := ih.2 now hpast clientIP
    refine ⟨?_, fun t ht ip => ?_⟩
    · simp only [step, allow_eq, hview, ih.1]
    · simp only [step, viewAt_allow, hview, ih.2 t (past_append.mp ht).1 ip]
  | prune now =>
    change Alike cfg _ _ (run cfg (unpruned events ++ []))
    rw [append_nil]
    refine ⟨ih.1, fun t ht ip => ?_⟩
    obtain ⟨hbefore, hle⟩ := past_append.mp ht
    exact (viewAt_prune (kept_run hclock now hpast) hle ip).trans (ih.2 t hbefore ip)

omit [Field K] [IsStrictOrderedRing K] in
theorem granted_append (answers : List (Answer K)) (a : Answer K) (ip : String) (start stop : K) :
    granted (answers ++ [a]) ip start stop = granted answers ip start stop +
      if ip = a.clientIP then (a.granted && inWindow start stop a.time).toNat else 0 := by
  rw [granted, countP_append, countP_singleton, granted]
  by_cases hip : ip = a.clientIP
  · cases a.granted && inWindow start stop a.time <;> simp [hip]
  · simp [hip, Ne.symm hip]

theorem spent_run (cfg : Config K) {start stop : K} (hwindow : start ≤ stop)
    (hclock : Clock events) : ∀ t, Past events t → ∀ ip, Spent (limit cfg) start stop
      (viewAt cfg (run cfg events).buckets ip t) (granted (run cfg events).answers ip start stop) := by
  refine clock_induction (P := fun events => ∀ t, Past events t → ∀ ip, Spent (limit cfg) start stop
    (viewAt cfg (run cfg events).buckets ip t) (granted (run cfg events).answers ip start stop)) hclock ?_ ?_
  · exact fun t _ _ => spent_full hwindow _ t
  · intro events e hclock hpast ih t ht ip
    obtain ⟨hbefore, hle⟩ := past_append.mp ht
    rw [run_append]
    cases e with
    | allow now clientIP =>
      simp only [step, viewAt_allow, granted_append]
      by_cases hip : ip = clientIP
      · have hspent := (ih now hpast clientIP).spend
        rw [lastRefill_viewAt] at hspent
        rw [if_pos hip, if_pos hip, hip, allow_eq]
        exact hspent.refill (by rwa [lastRefill_spend, lastRefill_viewAt])
      · rw [if_neg hip, if_neg hip, Nat.add_zero]
        exact ih t hbefore ip
    | prune now =>
      simp only [step, viewAt_prune (kept_run hclock now hpast) hle]
      exact ih t hbefore ip

/-- Every client is granted at most what the bucket holds and what flows into it, the
tokens stay within their bounds, and pruning changes no answer. -/
theorem requests_limited_and_pruning_transparent (cfg : Config K) (events : List (Event K)) (hclock : Clock events) :
    (∀ clientIP start T, 0 ≤ T → (granted (run cfg events).answers clientIP start (start + T) : K) ≤
      cfg.maxRequests * (1 + T / cfg.interval)) ∧ (∀ clientIP bucket, (run cfg events).buckets clientIP = some bucket →
      0 ≤ bucket.tokens ∧ bucket.tokens ≤ cfg.maxRequests) ∧
    (run cfg events).answers = (run cfg (unpruned events)).answers := by
  obtain ⟨last, hlast⟩ : ∃ t, Past events t := exists_past events
  refine ⟨fun clientIP start T hT => ?_, fun clientIP bucket hbucket => ?_, (alike_run hclock).1⟩
  · have hspent := spent_run cfg (le_add_of_nonneg_right hT : start ≤ start + T) hclock last hlast clientIP
    have hbound : (limit cfg).capacity + (start + T - start) * (limit cfg).rate =
        cfg.maxRequests * (1 + T / cfg.interval) := by
      change (cfg.maxRequests : K) + (start + T - start) * (cfg.maxRequests / cfg.interval) = _
      rw [add_sub_cancel_left, mul_add, mul_one, ← mul_div_assoc, ← mul_div_assoc, mul_comm T]
    exact hbound ▸ hspent.le
  · have hvalid := (kept_run hclock last hlast clientIP bucket hbucket).1
    exact ⟨hvalid.nonneg, hvalid.le_capacity⟩

def twoPerSecond : Config ℚ := ⟨2, 1, by decide, by decide⟩

def pruned : List (Event ℚ) := [.allow 0 "a", .allow 0 "a", .allow 0 "a", .prune 3, .allow 3 "a"]

theorem three_requests_granted : Clock pruned ∧ granted (run twoPerSecond pruned).answers "a" 0 (0 + 3) = 3 ∧
      (granted (run twoPerSecond pruned).answers "a" 0 (0 + 3) : ℚ) ≤ twoPerSecond.maxRequests * (1 + 3 / 1) ∧
      (run twoPerSecond pruned).answers = (run twoPerSecond (unpruned pruned)).answers := by
  have hclock : Clock pruned := by
    rw [Clock]
    decide
  have hlimited := requests_limited_and_pruning_transparent twoPerSecond pruned hclock
  exact ⟨hclock, by decide +kernel, hlimited.1 "a" 0 3 (by decide), hlimited.2.2⟩

end Logistics.RateLimiter
