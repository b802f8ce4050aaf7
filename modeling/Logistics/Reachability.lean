import Mathlib.Data.List.Induction
import Mathlib.Logic.Relation

namespace Logistics.Reachability

open List

variable {σ τ : Type}

inductive Reach (init : σ → Prop) (step : σ → σ → Prop) : σ → Prop
  | start {s : σ} (h : init s) : Reach init step s
  | next {s t : σ} (h : Reach init step s) (hs : step s t) : Reach init step t

/-- The steps of a system that are taken in accordance with a side condition
on the two states around them. -/
def Guarded (G : σ → σ → Prop) (step : σ → σ → Prop) (s t : σ) : Prop := step s t ∧ G s t

variable {P init : σ → Prop} {s : σ} {step : σ → σ → Prop}

theorem Reach.invariant (h₀ : ∀ s, init s → P s) (hs : ∀ s t, P s → step s t → P t) (h : Reach init step s) : P s := by
  induction h with
  | start h => exact h₀ _ h
  | next _ ht ih => exact hs _ _ ih ht

theorem Reach.mono {step' : σ → σ → Prop} (h : ∀ s t, step s t → step' s t)
    (hr : Reach init step s) : Reach init step' s := by
  induction hr with
  | start h₀ => exact .start h₀
  | next _ ht ih => exact .next ih (h _ _ ht)

/-- Forward simulation: a step of the concrete system leaves the abstract
state alone or is a step of the abstract system. -/
theorem Reach.simulates {init' : τ → Prop} {step' : τ → τ → Prop} (abs : σ → τ) (h₀ : ∀ s, init s → init' (abs s))
    (hs : ∀ s t, Reach init step s → step s t → abs t = abs s ∨ step' (abs s) (abs t))
    (h : Reach init step s) : Reach init' step' (abs s) := by
  induction h with
  | start h => exact .start (h₀ _ h)
  | next hr ht ih =>
    rcases hs _ _ hr ht with he | hstep
    · rwa [he]
    · exact .next ih hstep

variable {ε : Type}

/-- A property of histories that one more event keeps under exactly one condition
holds all along a history exactly when every event of it meets the condition. -/
theorem history_iff {G K : List ε → ε → Prop} {I P : List ε → Prop} (hI₀ : I [])
    (hI : ∀ before e, G before e → I before → I (before ++ [e])) (hP₀ : P [])
    (hstep : ∀ before e, G before e → I before → P before → (P (before ++ [e]) ↔ K before e)) {es : List ε}
    (hG : ∀ before e, before ++ [e] <+: es → G before e) :
    (∀ before, before <+: es → P before) ↔ ∀ before e, before ++ [e] <+: es → K before e := by
  have hinv : ∀ before, before <+: es → I before := by
    intro before
    induction before using List.reverseRecOn with
    | nil => exact fun _ => hI₀
    | append_singleton before e ih =>
      exact fun hpre => hI before e (hG before e hpre) (ih ((prefix_append before [e]).trans hpre))
  constructor
  · intro h before e hpre
    have hbefore := (prefix_append before [e]).trans hpre
    exact (hstep before e (hG before e hpre) (hinv before hbefore) (h before hbefore)).mp (h _ hpre)
  · intro h before
    induction before using List.reverseRecOn with
    | nil => exact fun _ => hP₀
    | append_singleton before e ih =>
      intro hpre
      have hbefore := (prefix_append before [e]).trans hpre
      exact (hstep before e (hG before e hpre) (hinv before hbefore) (ih hbefore)).mpr (h before e hpre)

theorem concat_iff {K : List ε → ε → Prop} {es : List ε} :
    (∀ before e, before ++ [e] <+: es → K before e) ↔ ∀ (n : Nat) (h : n < es.length), K (es.take n) es[n] := by
  constructor
  · intro hall n hn
    refine hall _ _ ?_
    rw [take_append_getElem hn]
    exact take_prefix _ _
  · rintro hall before e ⟨after, rfl⟩
    have hlast := hall before.length (by simp)
    simpa using hlast

variable {I : σ → Prop}

/-- A property that one step keeps under exactly one condition holds all along a
run exactly when every step of it meets the condition. -/
theorem prefix_iff {step : σ → ε → σ} {K : σ → ε → Prop} {s₀ : σ} (hI₀ : I s₀) (hI : ∀ s e, I s → I (step s e))
    (hP₀ : P s₀) (hstep : ∀ s e, I s → P s → (P (step s e) ↔ K s e)) (es : List ε) :
    (∀ before, before <+: es → P (before.foldl step s₀)) ↔ ∀ before e, before ++ [e] <+: es → K (before.foldl step s₀)
    e := by
  have hnext : ∀ before e, (before ++ [e]).foldl step s₀ = step (before.foldl step s₀) e :=
    fun _ _ => foldl_append
  refine history_iff (G := fun _ _ => True) (I := fun before => I (before.foldl step s₀)) hI₀ ?_ hP₀ ?_
    fun _ _ _ => trivial
  · intro before e _ hbefore
    rw [hnext]
    exact hI _ e hbefore
  · intro before e _ hinv hbefore
    rw [hnext]
    exact hstep _ e hinv hbefore

theorem last_iff {step : σ → ε → σ} {K : σ → ε → Prop} {s₀ : σ} (hI₀ : I s₀) (hI : ∀ s e, I s → I (step s e))
    (hP₀ : P s₀) (hstep : ∀ s e, I s → (P (step s e) ↔ P s ∧ K s e)) (es : List ε) : I (es.foldl step s₀) ∧
    (P (es.foldl step s₀) ↔ ∀ before e, before ++ [e] <+: es → K (before.foldl step s₀) e) := by
  induction es using List.reverseRecOn with
  | nil =>
    refine ⟨hI₀, iff_of_true hP₀ fun before e hpre => ?_⟩
    exact absurd (prefix_nil.mp hpre) (append_ne_nil_of_right_ne_nil _ (cons_ne_nil _ _))
  | append_singleton es e ih =>
    rw [foldl_append]
    refine ⟨hI _ e ih.1, ?_⟩
    rw [foldl_cons, foldl_nil, hstep _ e ih.1, ih.2]
    constructor
    · rintro ⟨hall, hlast⟩ before e' hpre
      rcases prefix_concat_iff.mp hpre with heq | hpre
      · obtain ⟨rfl, he⟩ := append_inj' heq rfl
        exact singleton_inj.mp he ▸ hlast
      · exact hall before e' hpre
    · intro hall
      exact ⟨fun before e' hpre => hall before e' (hpre.trans (prefix_append _ _)), hall es e (prefix_refl _)⟩

theorem foldl_invariant {step : σ → ε → σ} {es : List ε} (hs : P s)
    (hstep : ∀ s, ∀ e ∈ es, P s → P (step s e)) : P (es.foldl step s) :=
  List.foldlRecOn es step hs fun s hs e he => hstep s e he hs

variable {R : σ → σ → Prop}

theorem foldl_relates {step : σ → ε → σ} (hrefl : ∀ s, R s s) (htrans : ∀ {s t u}, R s t → R t u → R s u) (s : σ)
    {es : List ε} (hstep : ∀ e ∈ es, ∀ s, R s (step s e)) : R s (es.foldl step s) :=
  foldl_invariant (hrefl s) fun t e he h => htrans h (hstep e he t)

/-- Every step of a run meets a condition on the state in which it is taken. -/
def Along {ε : Type} (step : σ → ε → σ) (K : σ → ε → Prop) : σ → List ε → Prop
  | _, [] => True
  | s, e :: es => K s e ∧ Along step K (step s e) es

instance decidableAlong {ε : Type} (step : σ → ε → σ) (K : σ → ε → Prop) [∀ s e, Decidable (K s e)] :
    (s : σ) → (es : List ε) → Decidable (Along step K s es)
  | _, [] => isTrue trivial
  | s, e :: es =>
    have := decidableAlong step K (step s e) es
    inferInstanceAs (Decidable (K s e ∧ Along step K (step s e) es))

theorem along_append {step : σ → ε → σ} {K : σ → ε → Prop} {es es' : List ε} :
    Along step K s (es ++ es') ↔ Along step K s es ∧ Along step K (es.foldl step s) es' := by
  induction es generalizing s with
  | nil => exact ⟨fun h => ⟨trivial, h⟩, And.right⟩
  | cons e es ih => rw [cons_append, Along, Along, ih, foldl_cons, and_assoc]

theorem Along.and {step : σ → ε → σ} {K L : σ → ε → Prop} {es : List ε}
    (h : Along step K s es) (h' : Along step L s es) : Along step (fun s e => K s e ∧ L s e) s es := by
  induction es generalizing s with
  | nil => exact trivial
  | cons e es ih => exact ⟨⟨h.1, h'.1⟩, ih h.2 h'.2⟩

theorem along_congr {step : σ → ε → σ} {K L : σ → ε → Prop} (hI : ∀ s e, I s → L s e → I (step s e))
    (h : ∀ s e, I s → (K s e ↔ L s e)) (hs : I s) (es : List ε) : Along step K s es ↔ Along step L s es := by
  induction es generalizing s with
  | nil => exact Iff.rfl
  | cons e es ih =>
    rw [Along, h s e hs]
    exact and_congr_right fun hL => ih (hI s e hs hL)

theorem Along.invariant {step : σ → ε → σ} {K : σ → ε → Prop} (hstep : ∀ s e, P s → K s e → P (step s e)) {es : List ε}
    (hs : P s) (h : Along step K s es) : P (es.foldl step s) := by
  induction es generalizing s with
  | nil => exact hs
  | cons e es ih => exact ih (hstep s e hs h.1) h.2

theorem Along.consequence {step : σ → ε → σ} {K L : σ → ε → Prop} (hstep : ∀ s e, P s → K s e → P (step s e))
    (hL : ∀ s e, P s → K s e → L s e) {es : List ε} (hs : P s) (h : Along step K s es) : Along step L s es := by
  induction es generalizing s with
  | nil => exact trivial
  | cons e es ih => exact ⟨hL s e hs h.1, ih (hstep s e hs h.1) h.2⟩

theorem Along.relates {step : σ → ε → σ} {K : σ → ε → Prop}
    (hrefl : ∀ s, R s s) (htrans : ∀ s t u, R s t → R t u → R s u) (hI : ∀ s e, I s → I (step s e))
    (hstep : ∀ s e, I s → K s e → R s (step s e)) {es : List ε} (hs : I s) (h : Along step K s es) :
    R s (es.foldl step s) := by
  induction es generalizing s with
  | nil => exact hrefl s
  | cons e es ih => exact htrans _ _ _ (hstep s e hs h.1) (ih (hI s e hs) h.2)

end Logistics.Reachability

namespace Logistics.BoundedQueue

open Reachability

variable {α : Type}

/-- A first-in first-out queue together with the history of what it accepted
and what it handed out. -/
structure Queue (α : Type) where
  items : List α
  accepted : List α
  served : List α

def Init (q : Queue α) : Prop := q = ⟨[], [], []⟩

inductive Step (capacity : Nat) : Queue α → Queue α → Prop
  | enqueue {q : Queue α} (x : α) (h : q.items.length < capacity) :
      Step capacity q ⟨q.items ++ [x], q.accepted ++ [x], q.served⟩
  | dequeue {q : Queue α} {x : α} {xs : List α} (h : q.items = x :: xs) :
      Step capacity q ⟨xs, q.accepted, q.served ++ [x]⟩

theorem reach_fifo {capacity : Nat} {q : Queue α} (h : Reach Init (Step capacity) q) :
    q.accepted = q.served ++ q.items ∧ q.items.length ≤ capacity := by
  induction h with
  | start h₀ => cases h₀; simp
  | next _ hs ih =>
    cases hs with
    | enqueue x hlt => exact ⟨by simp [ih.1], by simp only [List.length_append, List.length_singleton]; omega⟩
    | dequeue hq =>
      obtain ⟨he, hl⟩ := ih
      rw [hq] at he hl
      exact ⟨by simp [he], Nat.le_of_succ_le hl⟩

end Logistics.BoundedQueue
