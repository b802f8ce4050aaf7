import Mathlib.Data.Option.Basic

namespace Logistics.TransactionProgram

/-- A piece of code that works inside one database transaction. It ends by
leaving the transaction uncommitted or by committing it; `thrown` is what it
returns when that statement, or the commit, raises an exception. -/
inductive Prog (Stmt : Type) (Res : Stmt → Type) (α : Type)
  | rollback (a : α)
  | commit (a thrown : α)
  | exec (s : Stmt) (thrown : α) (k : Res s → Prog Stmt Res α)

variable {Stmt : Type} {Res : Stmt → Type} {σ α β : Type}

def Prog.map (f : α → β) : Prog Stmt Res α → Prog Stmt Res β
  | .rollback a => .rollback (f a)
  | .commit a thrown => .commit (f a) (f thrown)
  | .exec s thrown k => .exec s (f thrown) fun r => (k r).map f

section Semantics

variable (step : (s : Stmt) → σ → Option (Res s × σ)) (undo : σ → σ → σ)

/-- Execution from the state `base` at the start of the transaction, with `w`
what the transaction itself sees. The statement numbered by `fault` fails, as
does a statement that `step` refuses; `undo base w` is the state after a rollback. -/
def Prog.run (base : σ) : Prog Stmt Res α → Option Nat → σ → α × σ
  | .rollback a, _, w => (a, undo base w)
  | .commit _ thrown, some 0, w => (thrown, undo base w)
  | .commit a _, _, w => (a, w)
  | .exec _ thrown _, some 0, w => (thrown, undo base w)
  | .exec s thrown k, fault, w =>
    match step s w with
    | none => (thrown, undo base w)
    | some (r, w') => (k r).run base (fault.map Nat.pred) w'

/-- What the program returns and leaves behind when it gets to its commit and
nothing fails on the way. -/
def Prog.committed : Prog Stmt Res α → σ → Option (α × σ)
  | .rollback _, _ => none
  | .commit a _, w => some (a, w)
  | .exec s _ k, w => (step s w).bind fun x => (k x.1).committed x.2

variable {step undo}

theorem Prog.run_cases (p : Prog Stmt Res α) (fault : Option Nat) (base w : σ) :
    (∃ a w', p.run step undo base fault w = (a, undo base w')) ∨
      p.committed step w = some (p.run step undo base fault w) := by
  induction p generalizing fault w with
  | rollback a => exact .inl ⟨a, w, rfl⟩
  | commit a thrown =>
    match fault with
    | some 0 => exact .inl ⟨thrown, w, rfl⟩
    | none | some (_ + 1) => exact .inr rfl
  | exec s thrown k ih =>
    match fault with
    | some 0 => exact .inl ⟨thrown, w, rfl⟩
    | none | some (_ + 1) =>
      simp only [Prog.run, Prog.committed]
      cases hs : step s w with
      | none => exact .inl ⟨thrown, w, rfl⟩
      | some x => exact ih x.1 _ x.2

variable {p : Prog Stmt Res α} {w : σ}

theorem Prog.run_of_committed {base : σ} {r : α × σ}
    (h : p.committed step w = some r) : p.run step undo base none w = r := by
  induction p generalizing w with
  | rollback a => cases h
  | commit a thrown => exact Option.some_injective _ h
  | exec s thrown k ih =>
    simp only [Prog.run, Prog.committed] at h ⊢
    cases hs : step s w with
    | none => simp [hs] at h
    | some x =>
      rw [hs] at h
      exact ih x.1 h

/-- Every way out of the program other than its commit returns a value with the
given property. -/
def Prog.Aborts (P : α → Prop) : Prog Stmt Res α → Prop
  | .rollback a => P a
  | .commit _ _ => True
  | .exec _ thrown k => P thrown ∧ ∀ r, (k r).Aborts P

variable {P : α → Prop}

theorem Prog.run_of_aborts {base : σ} (hp : p.Aborts P)
    (h : p.committed step w = none) : P (p.run step undo base none w).1 := by
  induction p generalizing w with
  | rollback a => exact hp
  | commit a thrown => cases h
  | exec s thrown k ih =>
    simp only [Prog.run, Prog.committed] at h ⊢
    cases hs : step s w with
    | none => exact hp.1
    | some x =>
      rw [hs] at h
      exact ih x.1 (hp.2 x.1) h

/-- Every way out of the program from the state `w` without a commit returns a
value with the property `P`, and every commit one with the property `Q`. -/
def Prog.Exits (step : (s : Stmt) → σ → Option (Res s × σ)) (P Q : α → Prop) : Prog Stmt Res α → σ → Prop
  | .rollback a, _ => P a
  | .commit a thrown, _ => Q a ∧ P thrown
  | .exec s thrown k, w => P thrown ∧ ∀ r w', step s w = some (r, w') → (k r).Exits step P Q w'

theorem Prog.run_exits {Q : α → Prop} (hp : p.Exits step P Q w) (fault : Option Nat) (base : σ) :
    (P (p.run step undo base fault w).1 ∧ ∃ w', (p.run step undo base fault w).2 = undo base w') ∨
      (Q (p.run step undo base fault w).1 ∧ p.committed step w = some (p.run step undo base fault w)) := by
  induction p generalizing fault w with
  | rollback a => exact .inl ⟨hp, w, rfl⟩
  | commit a thrown =>
    match fault with
    | some 0 => exact .inl ⟨hp.2, w, rfl⟩
    | none | some (_ + 1) => exact .inr ⟨hp.1, rfl⟩
  | exec s thrown k ih =>
    match fault with
    | some 0 => exact .inl ⟨hp.1, w, rfl⟩
    | none | some (_ + 1) =>
      simp only [Prog.run, Prog.committed]
      cases hs : step s w with
      | none => exact .inl ⟨hp.1, w, rfl⟩
      | some x => exact ih x.1 (hp.2 x.1 x.2 hs) _

end Semantics

end Logistics.TransactionProgram
