import Logistics.Reachability

namespace Logistics.DeferredCalls

open Reachability List Function

def eventfdMax : Nat := 18446744073709551614

inductive Call (F : Type)
  | idle
  | entering (fn : F)
  | inside (fn : F)
  | storing (fn : F) (seen : List F)
  | leaving
  | writing
  | stopping

/-- Where the loop is in `run`: `handling` the events of one `epoll_wait`, with the wake-up still
among them or not, and `calling` a function with those in the list after it. -/
inductive Phase (F : Type)
  | outside
  | checking
  | waiting
  | handling (wakeup : Bool)
  | woken
  | swapping
  | swapped (pending : List F)
  | running (pending : List F)
  | calling (pending : List F)

variable {ι F : Type}

def Call.Holds : Call F → Prop
  | .inside _ | .storing _ _ | .leaving => True
  | _ => False

def Call.Unsignalled : Call F → Prop
  | .leaving | .writing => True
  | _ => False

def Phase.Holds : Phase F → Prop
  | .swapping | .swapped _ => True
  | _ => False

def Phase.Unswapped : Phase F → Prop
  | .woken | .swapping => True
  | _ => False

def Phase.Calls : Phase F → Prop
  | .outside | .handling _ | .calling _ => True
  | _ => False

def Phase.pending : Phase F → List F
  | .swapped pending | .running pending | .calling pending => pending
  | _ => []

structure Shared (ι F : Type) where
  deferred : List F
  owner : Option (Option ι)
  counter : Nat
  running : Bool
  pushed : List F

def Shared.write (q : Shared ι F) : Shared ι F :=
  { q with counter := if q.counter < eventfdMax then q.counter + 1 else q.counter }

inductive CallStep (c : Option ι) : Shared ι F → Call F → Shared ι F → Call F → Prop
  | post (q : Shared ι F) (fn : F) : CallStep c q .idle q (.entering fn)
  | stop (q : Shared ι F) : CallStep c q .idle { q with running := false } .stopping
  | lock {q : Shared ι F} {fn : F} (h : q.owner = none) :
      CallStep c q (.entering fn) { q with owner := some c } (.inside fn)
  | load {q : Shared ι F} {fn : F} : CallStep c q (.inside fn) q (.storing fn q.deferred)
  | store {q : Shared ι F} {fn : F} {seen : List F} :
      CallStep c q (.storing fn seen) { q with deferred := seen ++ [fn], pushed := q.pushed ++ [fn] } .leaving
  | unlock {q : Shared ι F} : CallStep c q .leaving { q with owner := none } .writing
  | written {q : Shared ι F} : CallStep c q .writing q.write .idle
  | stopped {q : Shared ι F} : CallStep c q .stopping q.write .idle

inductive LoopStep : Shared ι F → Phase F → List F → Shared ι F → Phase F → List F → Prop
  | enter {q : Shared ι F} {ran : List F} : LoopStep q .outside ran { q with running := true } .checking ran
  | check {q : Shared ι F} {ran : List F} :
      LoopStep q .checking ran q (if q.running then .waiting else .outside) ran
  | interrupted {q : Shared ι F} {ran : List F} : LoopStep q .waiting ran q .checking ran
  | failed {q : Shared ι F} {ran : List F} : LoopStep q .waiting ran q .outside ran
  | report {q : Shared ι F} {ran : List F} (wakeup : Bool) (h : wakeup = true → 0 < q.counter) :
      LoopStep q .waiting ran q (.handling wakeup) ran
  | read {q : Shared ι F} {ran : List F} : LoopStep q (.handling true) ran { q with counter := 0 } .woken ran
  | lock {q : Shared ι F} {ran : List F} (h : q.owner = none) :
      LoopStep q .woken ran { q with owner := some none } .swapping ran
  | swap {q : Shared ι F} {ran : List F} :
      LoopStep q .swapping ran { q with deferred := [] } (.swapped q.deferred) ran
  | unlock {q : Shared ι F} {pending ran : List F} :
      LoopStep q (.swapped pending) ran { q with owner := none } (.running pending) ran
  | call {q : Shared ι F} {fn : F} {pending ran : List F} :
      LoopStep q (.running (fn :: pending)) ran q (.calling pending) (ran ++ [fn])
  | returned {q : Shared ι F} {pending ran : List F} :
      LoopStep q (.calling pending) ran q (.running pending) ran
  | done {q : Shared ι F} {ran : List F} : LoopStep q (.running []) ran q (.handling false) ran
  | again {q : Shared ι F} {ran : List F} : LoopStep q (.handling false) ran q .checking ran

structure State (ι F : Type) where
  shared : Shared ι F
  calls : Option ι → Call F
  phase : Phase F
  ran : List F

def Init (s : State ι F) : Prop := s = ⟨⟨[], none, 0, false, []⟩, fun _ => .idle, .outside, []⟩

inductive Step [DecidableEq ι] : State ι F → State ι F → Prop
  | call {s : State ι F} {c : Option ι} {q : Shared ι F} {k : Call F} (hloop : c = none → s.phase.Calls)
      (h : CallStep c s.shared (s.calls c) q k) :
      Step s { s with shared := q, calls := update s.calls c k }
  | loop {s : State ι F} {q : Shared ι F} {phase : Phase F} {ran : List F} (hidle : s.calls none = .idle)
      (h : LoopStep s.shared s.phase s.ran q phase ran) : Step s ⟨q, s.calls, phase, ran⟩

/-- The mutex is with the thread that is inside its critical section, which has seen the list as
it is, and there is a wake-up for a list that is not empty. -/
structure Inv (s : State ι F) : Prop where
  order : s.shared.pushed = s.ran ++ s.phase.pending ++ s.shared.deferred
  held : ∀ c, (s.calls c).Holds → s.shared.owner = some c
  loopHeld : s.phase.Holds → s.shared.owner = some none
  apart : s.phase.Holds → ¬(s.calls none).Holds
  seen : ∀ c fn seen, s.calls c = .storing fn seen → seen = s.shared.deferred
  signalled : s.shared.deferred ≠ [] →
    0 < s.shared.counter ∨ (∃ c, (s.calls c).Unsignalled) ∨ s.phase.Unswapped

variable {c : Option ι} {q q' : Shared ι F} {k k' : Call F}

structure Keeps (c : Option ι) (q : Shared ι F) (k : Call F) (q' : Shared ι F) (k' : Call F) : Prop where
  held : k'.Holds → q'.owner = some c
  others : ∀ d, d ≠ c → q.owner = some d → q'.owner = some d
  list : (q'.deferred = q.deferred ∧ q'.pushed = q.pushed) ∨
    q.owner = some c ∧ k'.Unsignalled ∧ ∃ fn, q'.deferred = q.deferred ++ [fn] ∧ q'.pushed = q.pushed ++ [fn]
  seen : ∀ fn seen, k' = .storing fn seen → seen = q'.deferred
  signal : 0 < q'.counter ∨ q'.counter = q.counter ∧ (k.Unsignalled → k'.Unsignalled)

theorem counter_write_pos (q : Shared ι F) : 0 < q.write.counter := by
  have hmax : 0 < eventfdMax := by decide
  simp only [Shared.write]
  split <;> omega

theorem CallStep.keeps (h : CallStep c q k q' k') (hheld : k.Holds → q.owner = some c)
    (hseen : ∀ fn seen, k = .storing fn seen → seen = q.deferred) : Keeps c q k q' k' := by
  cases h with
  | post fn | stop => exact ⟨False.elim, fun _ _ h => h, .inl ⟨rfl, rfl⟩, by simp, .inr ⟨rfl, False.elim⟩⟩
  | lock hfree =>
    refine ⟨fun _ => rfl, fun d _ hd => ?_, .inl ⟨rfl, rfl⟩, by simp, .inr ⟨rfl, False.elim⟩⟩
    rw [hfree] at hd
    cases hd
  | load => exact ⟨hheld, fun _ _ h => h, .inl ⟨rfl, rfl⟩, by simp, .inr ⟨rfl, False.elim⟩⟩
  | @store fn seen =>
    have hlist := hseen fn seen rfl
    exact ⟨hheld, fun _ _ h => h, .inr ⟨hheld trivial, trivial, fn, congrArg (· ++ [fn]) hlist, rfl⟩, by simp,
      .inr ⟨rfl, False.elim⟩⟩
  | unlock =>
    refine ⟨False.elim, fun d hd howner => ?_, .inl ⟨rfl, rfl⟩, by simp, .inr ⟨rfl, fun _ => trivial⟩⟩
    rw [hheld trivial] at howner
    exact absurd (Option.some.inj howner).symm hd
  | written | stopped => exact ⟨False.elim, fun _ _ h => h, .inl ⟨rfl, rfl⟩, by simp, .inl (counter_write_pos _)⟩

variable [DecidableEq ι] {s t : State ι F}

theorem Inv.call (h : Inv s) (hloop : c = none → s.phase.Calls) (hstep : CallStep c s.shared (s.calls c) q k) :
    Inv { s with shared := q, calls := update s.calls c k } := by
  have hkeeps := hstep.keeps (h.held c) (h.seen c)
  have hother {d : Option ι} (hd : d ≠ c) : update s.calls c k d = s.calls d := update_of_ne hd _ _
  have hidle (hholds : s.phase.Holds) : none ≠ c := by
    rintro rfl
    have hcalls := hloop rfl
    cases hphase : s.phase <;> rw [hphase] at hholds hcalls <;> trivial
  constructor
  · rcases hkeeps.list with ⟨hdeferred, hpushed⟩ | ⟨-, -, fn, hdeferred, hpushed⟩
    · rw [hdeferred, hpushed, h.order]
    · rw [hdeferred, hpushed, h.order, append_assoc]
  · intro d (hd : (update s.calls c k d).Holds)
    by_cases hdc : d = c
    · rw [hdc, update_self] at hd
      exact hdc ▸ hkeeps.held hd
    · rw [hother hdc] at hd
      exact hkeeps.others d hdc (h.held d hd)
  · exact fun hholds => hkeeps.others none (hidle hholds) (h.loopHeld hholds)
  · intro hholds (hnone : (update s.calls c k none).Holds)
    rw [hother (hidle hholds)] at hnone
    exact h.apart hholds hnone
  · intro d fn seen (hd : update s.calls c k d = _)
    by_cases hdc : d = c
    · rw [hdc, update_self] at hd
      exact hkeeps.seen fn seen hd
    · rw [hother hdc] at hd
      rcases hkeeps.list with ⟨hdeferred, -⟩ | ⟨howner, -⟩
      · exact (h.seen d fn seen hd).trans hdeferred.symm
      · have hd' := h.held d (by rw [hd]; trivial)
        exact absurd (Option.some.inj (hd'.symm.trans howner)) hdc
  · intro (hne : q.deferred ≠ [])
    change 0 < q.counter ∨ (∃ d, (update s.calls c k d).Unsignalled) ∨ s.phase.Unswapped
    rcases hkeeps.signal with hpos | ⟨hcounter, hunsignalled⟩
    · exact .inl hpos
    rcases hkeeps.list with ⟨hdeferred, -⟩ | ⟨-, hk, -⟩
    · rw [hdeferred] at hne
      rw [hcounter]
      refine (h.signalled hne).imp_right (Or.imp_left ?_)
      rintro ⟨d, hd⟩
      refine ⟨d, ?_⟩
      by_cases hdc : d = c
      · rw [hdc] at hd ⊢
        rw [update_self]
        exact hunsignalled hd
      · rwa [hother hdc]
    · exact .inr (.inl ⟨c, by rwa [update_self]⟩)

omit [DecidableEq ι] in
theorem Inv.go (h : Inv s) {phase : Phase F} {ran : List F} (running : Bool) (hfree : ¬phase.Holds)
    (hran : ran ++ phase.pending = s.ran ++ s.phase.pending) (hswap : s.phase.Unswapped → phase.Unswapped) :
    Inv ⟨{ s.shared with running := running }, s.calls, phase, ran⟩ where
  order := by rw [hran, ← h.order]
  held := h.held
  loopHeld hholds := absurd hholds hfree
  apart hholds := absurd hholds hfree
  seen := h.seen
  signalled hne := (h.signalled hne).imp_right (Or.imp_right hswap)

omit [DecidableEq ι] in
theorem Inv.alone (h : Inv s) (hidle : s.calls none = .idle) (howner : s.shared.owner = some none) (c : Option ι) :
    ¬(s.calls c).Holds := by
  intro hc
  obtain rfl := Option.some.inj ((h.held c hc).symm.trans howner)
  rw [hidle] at hc
  exact hc

omit [DecidableEq ι] in
theorem Inv.loop {phase : Phase F} {ran : List F} (h : Inv s) (hidle : s.calls none = .idle)
    (hstep : LoopStep s.shared s.phase s.ran q phase ran) : Inv ⟨q, s.calls, phase, ran⟩ := by
  obtain ⟨shared, calls, phase₀, ran₀⟩ := s
  have hnone : ¬(calls none).Holds := by
    rw [show calls none = .idle from hidle]
    exact id
  cases hstep with
  | enter => exact h.go true id rfl False.elim
  | check =>
    cases hrunning : shared.running with
    | false | true => exact h.go _ id rfl False.elim
  | interrupted | failed | report wakeup hcounter | returned | done | again => exact h.go _ id rfl False.elim
  | call => exact h.go _ id (append_assoc _ _ _) False.elim
  | read => exact ⟨h.order, h.held, False.elim, fun _ => hnone, h.seen, fun _ => .inr (.inr trivial)⟩
  | lock howner =>
    refine ⟨h.order, fun c hc => ?_, fun _ => rfl, fun _ => hnone, h.seen, fun _ => .inr (.inr trivial)⟩
    have hheld := h.held c hc
    rw [howner] at hheld
    cases hheld
  | swap =>
    have halone := h.alone hidle (h.loopHeld trivial)
    refine ⟨?_, h.held, fun _ => h.loopHeld trivial, fun _ => hnone, fun c fn seen hc => ?_, absurd rfl⟩
    · have horder : shared.pushed = ran₀ ++ [] ++ shared.deferred := h.order
      rw [append_nil] at horder
      exact horder.trans (append_nil _).symm
    · have hcall : calls c = .storing fn seen := hc
      exact absurd (show (calls c).Holds by rw [hcall]; trivial) (halone c)
  | unlock =>
    have halone := h.alone hidle (h.loopHeld trivial)
    exact ⟨h.order, fun c hc => absurd hc (halone c), False.elim, False.elim, h.seen,
      fun hne => (h.signalled hne).imp_right (Or.imp_right False.elim)⟩

theorem Inv.step (h : Inv s) (hstep : Step s t) : Inv t := by
  cases hstep with
  | call hloop hstep => exact h.call hloop hstep
  | loop hidle hstep => exact h.loop hidle hstep

omit [DecidableEq ι] in
theorem inv_init (h : Init s) : Inv s := by
  cases h
  exact ⟨rfl, fun _ => False.elim, False.elim, False.elim, by simp, absurd rfl⟩

/-- The functions are run in the order in which they were pushed, each once, and a list that is
not empty has a wake-up that is due. -/
theorem deferred_run_in_order (s : State ι F) (h : Reach Init Step s) :
    s.shared.pushed = s.ran ++ s.phase.pending ++ s.shared.deferred ∧ s.ran <+: s.shared.pushed ∧
      (s.shared.deferred ≠ [] → 0 < s.shared.counter ∨ (∃ c, (s.calls c).Unsignalled) ∨ s.phase.Unswapped) := by
  have hinv : Inv s := h.invariant (fun _ => inv_init) fun _ _ hs hstep => hs.step hstep
  refine ⟨hinv.order, ?_, hinv.signalled⟩
  rw [hinv.order, append_assoc]
  exact prefix_append _ _

theorem reach_post {s : State ι F} (h : Reach Init Step s) (i : ι) (hidle : s.calls (some i) = .idle)
    (hfree : s.shared.owner = none) (fn : F) : Reach Init Step { s with
      shared := ⟨s.shared.deferred ++ [fn], none, s.shared.counter, s.shared.running, s.shared.pushed ++ [fn]⟩,
      calls := update s.calls (some i) .writing } := by
  have hnext {s : State ι F} {q : Shared ι F} {k k' : Call F} (hs : Reach Init Step s) (hk : s.calls (some i) = k)
      (hstep : CallStep (some i) s.shared k q k') :
      Reach Init Step { s with shared := q, calls := update s.calls (some i) k' } :=
    hs.next (.call (absurd · (Option.some_ne_none i)) (hk ▸ hstep))
  have h₁ := hnext h hidle (.post _ fn)
  have h₂ := hnext h₁ (update_self ..) (.lock hfree)
  have h₃ := hnext h₂ (update_self ..) .load
  have h₄ := hnext h₃ (update_self ..) .store
  have h₅ := hnext h₄ (update_self ..) .unlock
  simpa only [update_idem] using h₅

/-- One function is posted and run, and another one is posted meanwhile. -/
theorem posted_while_running : ∃ s : State Bool Nat, Reach Init Step s ∧ s.ran = [1] ∧ s.shared.deferred = [2] ∧
    s.shared.pushed = [1] ++ s.phase.pending ++ [2] ∧
    (0 < s.shared.counter ∨ (∃ c, (s.calls c).Unsignalled) ∨ s.phase.Unswapped) := by
  have h₀ : Reach Init Step (⟨⟨[], none, 0, false, []⟩, fun _ => .idle, .outside, []⟩ : State Bool Nat) := .start rfl
  have h₁ := (reach_post h₀ false rfl rfl 1).next
    (.call (absurd · (Option.some_ne_none false)) (.written : CallStep (some false) _ .writing _ _))
  have h₂ := h₁.next (.loop rfl .enter)
  have h₃ := h₂.next (.loop rfl .check)
  have h₄ := h₃.next (.loop rfl (.report true fun _ => by decide))
  have h₅ := h₄.next (.loop rfl .read)
  have h₆ := h₅.next (.loop rfl (.lock rfl))
  have h₇ := h₆.next (.loop rfl .swap)
  have h₈ := h₇.next (.loop rfl .unlock)
  have h₉ := h₈.next (.loop rfl .call)
  have h := reach_post h₉ true rfl rfl 2
  obtain ⟨horder, -, hsignalled⟩ := deferred_run_in_order _ h
  exact ⟨_, h, rfl, rfl, horder, hsignalled (cons_ne_nil 2 [])⟩

end Logistics.DeferredCalls
