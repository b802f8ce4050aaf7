import Mathlib.Order.Basic
import Logistics.Reachability

namespace Logistics.CircuitBreaker

open Reachability Function

inductive BreakerState
  | stateClosed
  | stateOpen
  | stateHalfOpen
  deriving DecidableEq

structure Config where
  maxFailures : Int
  resetTimeout : Int

structure Breaker where
  state : BreakerState
  consecutiveFails : Int
  lastOpenedAt : Option Int
  deriving DecidableEq

def newCircuitBreaker : Breaker := ⟨.stateClosed, 0, none⟩

/-- Where a call of `Execute` is. Between its two critical sections it has been let
through, as the probe or not, and calls its operation. -/
inductive Phase
  | idle
  | admitted (probe : Bool)
  | running (probe : Bool)
  deriving DecidableEq

structure State (ι : Type) where
  breaker : Breaker
  phases : ι → Phase
  now : Int

def start (ι : Type) : State ι := ⟨newCircuitBreaker, fun _ => .idle, 0⟩

def Breaker.enter (cfg : Config) (now : Int) (b : Breaker) : Option (Bool × Breaker) :=
  match b.state with
  | .stateOpen =>
    if b.lastOpenedAt.any fun t => now - t < cfg.resetTimeout then none
    else some (true, { b with state := .stateHalfOpen })
  | .stateHalfOpen => none
  | .stateClosed => some (false, b)

def Breaker.report (cfg : Config) (now : Int) (failed : Bool) (b : Breaker) : Breaker :=
  if failed then
    let consecutiveFails := b.consecutiveFails + 1
    if cfg.maxFailures ≤ consecutiveFails ∨ b.state = .stateHalfOpen then
      ⟨.stateOpen, consecutiveFails, some now⟩
    else { b with consecutiveFails := consecutiveFails }
  else { b with state := .stateClosed, consecutiveFails := 0 }

variable {ι : Type}

inductive Event (ι : Type)
  | tick (elapsed : Nat)
  | enter (i : ι)
  | begin (i : ι)
  | finish (i : ι) (failed : Bool)

def step [DecidableEq ι] (cfg : Config) (s : State ι) : Event ι → State ι
  | .tick elapsed => { s with now := s.now + elapsed }
  | .enter i =>
    match s.phases i with
    | .idle =>
      match s.breaker.enter cfg s.now with
      | none => s
      | some (probe, b) => { s with breaker := b, phases := update s.phases i (.admitted probe) }
    | _ => s
  | .begin i =>
    match s.phases i with
    | .admitted probe => { s with phases := update s.phases i (.running probe) }
    | _ => s
  | .finish i failed =>
    match s.phases i with
    | .running _ => { s with breaker := s.breaker.report cfg s.now failed, phases := update s.phases i .idle }
    | _ => s

def run [DecidableEq ι] (cfg : Config) (events : List (Event ι)) : State ι := events.foldl (step cfg) (start ι)

variable {cfg : Config} {s : State ι}

def PeriodOver (cfg : Config) (s : State ι) : Prop := ∀ t ∈ s.breaker.lastOpenedAt, t + cfg.resetTimeout ≤ s.now

def StartsLate (cfg : Config) (s : State ι) : Event ι → Prop
  | .begin i => ∀ probe, s.phases i = .admitted probe → PeriodOver cfg s
  | _ => True

def Phase.isProbe : Phase → Bool
  | .admitted probe | .running probe => probe
  | .idle => false

def OneProbe (s : State ι) : Prop := ∀ i j, (s.phases i).isProbe = true → (s.phases j).isProbe = true → i = j

/-- A call that was let through while the breaker was closed does not start its
operation while it is open, does not fail while it is half open, and does not
succeed until it is closed again. -/
def Undisturbed (s : State ι) : Event ι → Prop
  | .begin i => s.phases i = .admitted false → s.breaker.state ≠ .stateOpen
  | .finish i failed => s.phases i = .running false →
      if failed then s.breaker.state ≠ .stateHalfOpen else s.breaker.state = .stateClosed
  | _ => True

instance (cfg : Config) (s : State ι) : Decidable (PeriodOver cfg s) := inferInstanceAs (Decidable (∀ t ∈ _, _))

instance (cfg : Config) (s : State ι) : (e : Event ι) → Decidable (StartsLate cfg s e)
  | .begin _ => inferInstanceAs (Decidable (∀ _ : Bool, _))
  | .tick _ | .enter _ | .finish _ _ => isTrue trivial

instance (s : State ι) : (e : Event ι) → Decidable (Undisturbed s e)
  | .begin _ => inferInstanceAs (Decidable (_ → _))
  | .finish _ failed => inferInstanceAs (Decidable (_ → if failed then _ else _))
  | .tick _ | .enter _ => isTrue trivial

structure Sound (cfg : Config) (s : State ι) : Prop where
  one : OneProbe s
  halfOpen : ∀ i, (s.phases i).isProbe = true → s.breaker.state = .stateHalfOpen
  passed : s.breaker.state ≠ .stateOpen → PeriodOver cfg s

theorem sound_start (cfg : Config) : Sound cfg (start ι) where
  one i j h _ := by cases h
  halfOpen i h := by cases h
  passed _ t ht := by cases ht

theorem Sound.tick (h : Sound cfg s) (elapsed : Nat) : Sound cfg { s with now := s.now + elapsed } where
  one := h.one
  halfOpen := h.halfOpen
  passed hne t ht := Int.le_trans (h.passed hne t ht) (Int.le_add_of_nonneg_right (Int.natCast_nonneg elapsed))

variable [DecidableEq ι]

theorem isProbe_update (s : State ι) (i j : ι) (phase : Phase) :
    (update s.phases i phase j).isProbe = if j = i then phase.isProbe else (s.phases j).isProbe := by
  rw [update_apply]
  split <;> rfl

theorem Sound.move (h : Sound cfg s) {i : ι} {phase : Phase} (hsame : phase.isProbe = (s.phases i).isProbe) :
    Sound cfg { s with phases := update s.phases i phase } := by
  have hprobe (j : ι) : (update s.phases i phase j).isProbe = (s.phases j).isProbe := by
    rw [isProbe_update]
    split
    · next hj => rw [hsame, hj]
    · rfl
  refine ⟨fun j k hj hk => h.one j k ?_ ?_, fun j hj => h.halfOpen j ?_, h.passed⟩
  · rwa [← hprobe]
  · rwa [← hprobe]
  · rwa [← hprobe]

theorem Sound.probe (h : Sound cfg s) (i : ι) (hopen : s.breaker.state = .stateOpen) (hover : PeriodOver cfg s) :
    Sound cfg { s with
      breaker := { s.breaker with state := .stateHalfOpen }
      phases := update s.phases i (.admitted true) } := by
  have honly (j : ι) (hj : (update s.phases i (.admitted true) j).isProbe = true) : j = i := by
    rw [isProbe_update] at hj
    split at hj
    · assumption
    · have hhalf := h.halfOpen j hj
      rw [hopen] at hhalf
      cases hhalf
  exact ⟨fun j k hj hk => (honly j hj).trans (honly k hk).symm, fun _ _ => rfl, fun _ => hover⟩

omit [DecidableEq ι] in
theorem periodOver_of_not_any (h : ¬ (s.breaker.lastOpenedAt.any fun t => s.now - t < cfg.resetTimeout) = true) :
    PeriodOver cfg s := by
  intro t ht
  rw [Option.mem_def.mp ht, Option.any_some, decide_eq_true_eq] at h
  omega

theorem Sound.enter (h : Sound cfg s) (i : ι) : Sound cfg (step cfg s (.enter i)) := by
  rw [step]
  split
  · next hidle =>
    cases hstate : s.breaker.state with
    | stateClosed =>
      simp only [Breaker.enter, hstate]
      exact h.move (by rw [hidle]; rfl)
    | stateHalfOpen =>
      simp only [Breaker.enter, hstate]
      exact h
    | stateOpen =>
      by_cases hearly : (s.breaker.lastOpenedAt.any fun t => s.now - t < cfg.resetTimeout) = true
      · simp only [Breaker.enter, hstate, if_pos hearly]
        exact h
      · simp only [Breaker.enter, hstate, if_neg hearly]
        exact h.probe i hstate (periodOver_of_not_any hearly)
  · exact h

theorem Sound.begin (h : Sound cfg s) (i : ι) : Sound cfg (step cfg s (.begin i)) := by
  rw [step]
  split
  · next probe hadmitted => exact h.move (by rw [hadmitted]; rfl)
  · exact h

omit [DecidableEq ι] in
theorem Sound.over_report (h : Sound cfg s) {failed : Bool} (hclosing : failed = false → s.breaker.state ≠ .stateOpen)
    (hne : (s.breaker.report cfg s.now failed).state ≠ .stateOpen) :
    ∀ t ∈ (s.breaker.report cfg s.now failed).lastOpenedAt, t + cfg.resetTimeout ≤ s.now := by
  rw [Breaker.report] at hne ⊢
  split at hne
  · next hfailed =>
    rw [if_pos hfailed]
    dsimp only at hne ⊢
    split at hne
    · exact absurd rfl hne
    · next hsame =>
      rw [if_neg hsame]
      exact h.passed hne
  · next hfailed =>
    rw [if_neg hfailed]
    exact h.passed (hclosing (Bool.eq_false_iff.mpr hfailed))

theorem Sound.finish (h : Sound cfg s) (i : ι) (failed : Bool) (hundisturbed : Undisturbed s (.finish i failed)) :
    Sound cfg (step cfg s (.finish i failed)) := by
  rw [step]
  split
  · next probe hrunning =>
    have hstate : (s.phases i).isProbe = true ∧ s.breaker.state = .stateHalfOpen ∨
        s.breaker.state ≠ .stateHalfOpen ∧ (failed = false → s.breaker.state ≠ .stateOpen) := by
      cases probe with
      | true =>
        have hprobe : (s.phases i).isProbe = true := by rw [hrunning]; rfl
        exact .inl ⟨hprobe, h.halfOpen i hprobe⟩
      | false =>
        have hundisturbed := hundisturbed hrunning
        cases failed with
        | true => exact .inr ⟨hundisturbed, fun hf => by cases hf⟩
        | false =>
          have hclosed : s.breaker.state = .stateClosed := hundisturbed
          rw [hclosed]
          exact .inr ⟨by decide, fun _ => by decide⟩
    have hnone (j : ι) : (update s.phases i .idle j).isProbe = false := by
      rw [isProbe_update]
      split
      · rfl
      · next hj =>
        refine Bool.eq_false_iff.mpr fun hprobe => ?_
        rcases hstate with ⟨hi, -⟩ | ⟨hne, -⟩
        · exact hj (h.one j i hprobe hi)
        · exact hne (h.halfOpen j hprobe)
    have hclosing : failed = false → s.breaker.state ≠ .stateOpen := by
      rcases hstate with ⟨-, hhalf⟩ | ⟨-, hclosing⟩
      · rw [hhalf]
        exact fun _ => by decide
      · exact hclosing
    refine ⟨fun j k hj _ => ?_, fun j hj => ?_, fun hne => h.over_report hclosing hne⟩
    · exact absurd hj (Bool.eq_false_iff.mp (hnone j))
    · exact absurd hj (Bool.eq_false_iff.mp (hnone j))
  · exact h

theorem Sound.step (h : Sound cfg s) (e : Event ι) (hundisturbed : Undisturbed s e) : Sound cfg (step cfg s e) := by
  cases e with
  | tick elapsed => exact h.tick elapsed
  | enter i => exact h.enter i
  | begin i => exact h.begin i
  | finish i failed => exact h.finish i failed hundisturbed

omit [DecidableEq ι] in
theorem Sound.startsLate (h : Sound cfg s) (e : Event ι) (hundisturbed : Undisturbed s e) : StartsLate cfg s e := by
  cases e with
  | begin i =>
    intro probe hadmitted
    cases probe with
    | false => exact h.passed (hundisturbed hadmitted)
    | true =>
      have hhalf := h.halfOpen i (by rw [hadmitted]; rfl)
      exact h.passed (by rw [hhalf]; decide)
  | _ => exact trivial

/-- In every undisturbed run no operation is started while the breaker is to stay
open, and there is never more than one probe. -/
theorem undisturbed_breaker_guards (cfg : Config) (events : List (Event ι))
    (hundisturbed : Along (step cfg) Undisturbed (start ι) events) :
    Along (step cfg) (StartsLate cfg) (start ι) events ∧ ∀ before, before <+: events → OneProbe (run cfg before) := by
  refine ⟨Along.consequence (fun _ e h => h.step e) (fun _ e h => h.startsLate e) (sound_start cfg) hundisturbed, ?_⟩
  rintro before ⟨after, rfl⟩
  exact (Along.invariant (fun _ e h => h.step e) (sound_start cfg) (along_append.mp hundisturbed).1).one

def oneFailure : Config := ⟨1, 10⟩

def recovery : List (Event Nat) :=
  [.enter 0, .begin 0, .finish 0 true, .tick 9, .enter 1, .tick 1, .enter 2, .begin 2, .enter 3, .finish 2 false]

theorem recovery_guarded : Along (step oneFailure) (StartsLate oneFailure) (start Nat) recovery ∧
      ∀ before, before <+: recovery → OneProbe (run oneFailure before) :=
  undisturbed_breaker_guards oneFailure recovery (by decide)

/-- An operation that succeeds late closes the breaker, so that another is started
at once; a call that was let through starts its operation although the breaker has
opened meanwhile; and an operation that fails late lets a second probe start while
the first one runs. -/
theorem late_results_break_breaker : ¬ Along (step oneFailure) (StartsLate oneFailure) (start Nat)
      [.enter 0, .begin 0, .enter 1, .begin 1, .finish 0 true, .tick 1, .finish 1 false, .enter 2, .begin 2] ∧
    ¬ Along (step oneFailure) (StartsLate oneFailure) (start Nat)
      [.enter 0, .begin 0, .enter 1, .finish 0 true, .tick 1, .begin 1] ∧
    let s := run oneFailure [.enter 0, .begin 0, .enter 1, .begin 1, .finish 0 true, .tick 10, .enter 2, .begin 2,
      .finish 1 true, .tick 10, .enter 3, .begin 3]
    s.phases 2 = .running true ∧ s.phases 3 = .running true := by
  decide

end Logistics.CircuitBreaker
