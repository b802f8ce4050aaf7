import Mathlib.Algebra.Ring.Nat
import Logistics.Reachability
import Logistics.Semaphores

namespace Logistics.ConnectionPool

open Reachability ThreadCount List Function

structure Guard where
  pool : Bool
  connection : Option Nat
  usable : connection.isSome → pool

def Guard.holding (conn : Nat) : Guard := ⟨true, some conn, fun _ => rfl⟩

def Guard.emptied (guard : Guard) : Guard := ⟨guard.pool, none, by simp⟩

def Guard.movedFrom : Guard := ⟨false, none, by simp⟩

@[simp] theorem Guard.connection_holding (conn : Nat) : (holding conn).connection = some conn := rfl

@[simp] theorem Guard.connection_emptied (guard : Guard) : guard.emptied.connection = none := rfl

@[simp] theorem Guard.connection_movedFrom : movedFrom.connection = none := rfl

/-- The storage of a guard: nothing has been constructed there, a guard is alive, or a thread is
in the middle of an operation on it. Two threads that use one guard at a time would race. -/
inductive Slot (ι : Type)
  | absent
  | live (guard : Guard)
  | used (thread : ι) (guard : Guard)

@[simp] def Slot.connection {ι : Type} : Slot ι → Option Nat
  | absent => none
  | live guard => guard.connection
  | used _ guard => guard.connection

inductive Caller (γ : Type)
  | destructor (guard : γ)
  | assignment (target source : γ)

inductive Phase (γ : Type)
  | idle
  | acquiring (target : γ)
  | releasing (conn : Nat) (caller : Caller γ)
  | pushing (conn : Nat) (caller : Caller γ)
  | pushed (caller : Caller γ)

@[simp] def Phase.released {γ : Type} : Phase γ → Option Nat
  | releasing conn _ => some conn
  | pushing conn _ => some conn
  | _ => none

structure Pool (ι γ : Type) where
  available : List Nat
  slots : γ → Slot ι
  phase : ι → Phase γ
  opened : Nat

variable {ι γ : Type} [DecidableEq ι] [DecidableEq γ] {poolSize : Nat} {s s' : Pool ι γ} {t : ι}

def start (poolSize : Nat) : Pool ι γ := ⟨range poolSize, fun _ => .absent, fun _ => .idle, poolSize⟩

namespace Pool

def set (s : Pool ι γ) (g : γ) (slot : Slot ι) : Pool ι γ := { s with slots := update s.slots g slot }

def goto (s : Pool ι γ) (t : ι) (phase : Phase γ) : Pool ι γ := { s with phase := update s.phase t phase }

def move (s : Pool ι γ) (target source : γ) (guard : Guard) : Pool ι γ :=
  (s.set target (.live guard)).set source (.live .movedFrom)

omit [DecidableEq ι] in
@[simp] theorem set_phase (s : Pool ι γ) (g : γ) (slot : Slot ι) : (s.set g slot).phase = s.phase := rfl

omit [DecidableEq ι] in
@[simp] theorem set_slots_of_ne {g g' : γ} {slot : Slot ι} (h : g' ≠ g) : (s.set g slot).slots g' = s.slots g' :=
  update_of_ne h _ _

end Pool

/-- What a thread does while it has `m_mutex` is one step. A thread that waits for a connection
goes on when there is one. -/
inductive Step (s : Pool ι γ) : Pool ι γ → Prop
  | acquire {t target} (ht : s.phase t = .idle) (htarget : s.slots target = .absent) :
      Step s ((s.set target (.used t .movedFrom)).goto t (.acquiring target))
  | pop {t target conn rest} (ht : s.phase t = .acquiring target) (hconn : s.available = conn :: rest) :
      Step s (({ s with available := rest }.set target (.live (.holding conn))).goto t .idle)
  | moveConstruct {t target source guard} (ht : s.phase t = .idle) (htarget : s.slots target = .absent)
      (hsource : s.slots source = .live guard) : Step s (s.move target source guard)
  | selfAssign {t target guard} (ht : s.phase t = .idle) (htarget : s.slots target = .live guard) : Step s s
  | moveAssign {t target source held guard} (ht : s.phase t = .idle) (hne : target ≠ source)
      (htarget : s.slots target = .live held) (hsource : s.slots source = .live guard)
      (hheld : held.connection = none) : Step s (s.move target source guard)
  | releaseAssign {t target source held guard conn} (ht : s.phase t = .idle) (hne : target ≠ source)
      (htarget : s.slots target = .live held) (hsource : s.slots source = .live guard)
      (hheld : held.connection = some conn) :
      Step s (((s.set target (.used t held.emptied)).set source (.used t guard)).goto t
        (.releasing conn (.assignment target source)))
  | destroy {t target held} (ht : s.phase t = .idle) (htarget : s.slots target = .live held)
      (hheld : held.connection = none) : Step s (s.set target .absent)
  | releaseDestroy {t target held conn} (ht : s.phase t = .idle) (htarget : s.slots target = .live held)
      (hheld : held.connection = some conn) :
      Step s ((s.set target (.used t held.emptied)).goto t (.releasing conn (.destructor target)))
  | reconnect {t conn caller} (ht : s.phase t = .releasing conn caller) :
      Step s ({ s with opened := s.opened + 1 }.goto t (.pushing s.opened caller))
  | keep {t conn caller} (ht : s.phase t = .releasing conn caller) : Step s (s.goto t (.pushing conn caller))
  | push {t conn caller} (ht : s.phase t = .pushing conn caller) :
      Step s ({ s with available := s.available ++ [conn] }.goto t (.pushed caller))
  | destroyed {t target} (ht : s.phase t = .pushed (.destructor target)) :
      Step s ((s.set target .absent).goto t .idle)
  | assigned {t target source guard} (ht : s.phase t = .pushed (.assignment target source))
      (hsource : s.slots source = .used t guard) : Step s ((s.move target source guard).goto t .idle)

def Owned (s : Pool ι γ) (t : ι) : Caller γ → Prop
  | .destructor target => ∃ held : Guard, held.connection = none ∧ s.slots target = .used t held
  | .assignment target source => target ≠ source ∧
      (∃ held : Guard, held.connection = none ∧ s.slots target = .used t held) ∧
      ∃ guard, s.slots source = .used t guard

def Placed (s : Pool ι γ) (t : ι) : Phase γ → Prop
  | .idle => True
  | .acquiring target => ∃ held : Guard, held.connection = none ∧ s.slots target = .used t held
  | .releasing _ caller => Owned s t caller
  | .pushing _ caller => Owned s t caller
  | .pushed caller => Owned s t caller

omit [DecidableEq ι] [DecidableEq γ] in
theorem Placed.frame {phase : Phase γ} (h : Placed s t phase)
    (hslots : ∀ g guard, s.slots g = .used t guard → s'.slots g = .used t guard) : Placed s' t phase := by
  have howned : ∀ caller, Owned s t caller → Owned s' t caller := by
    intro caller howned
    cases caller with
    | destructor target => exact howned.imp fun held => And.imp_right (hslots _ _)
    | assignment target source =>
      exact ⟨howned.1, howned.2.1.imp fun held => And.imp_right (hslots _ _), howned.2.2.imp fun guard => hslots _ _⟩
  cases phase with
  | idle => exact trivial
  | acquiring target => exact h.imp fun held => And.imp_right (hslots _ _)
  | releasing conn caller | pushing conn caller | pushed caller => exact howned caller h

theorem placed_by_step (hplaced : ∀ t, Placed s t (s.phase t)) (h : Step s s') : ∃ t, Placed s' t (s'.phase t) ∧
    ∀ t' ≠ t, s'.phase t' = s.phase t' ∧ ∀ g guard, s.slots g = .used t' guard → s'.slots g = .used t' guard := by
  have hof : ∀ {t phase}, s.phase t = phase → Placed s t phase := fun h => h ▸ hplaced _
  cases h with
  | @selfAssign t _ _ ht htarget => exact ⟨t, hplaced t, fun t' hne => ⟨rfl, fun g guard => id⟩⟩
  | reconnect ht | keep ht | push ht =>
    refine ⟨_, ?_, fun t' hne => ⟨update_of_ne hne _ _, fun g guard => id⟩⟩
    simp only [Pool.goto, update_self]
    exact hof ht
  | acquire ht htarget | releaseDestroy ht htarget hheld =>
    refine ⟨_, ?_, fun t' hne => ⟨update_of_ne hne _ _, fun g guard hg => ?_⟩⟩
    · simp [Pool.goto, Pool.set, Placed, Owned]
    · simp only [Pool.goto, Pool.set, update_apply]
      grind
  | @moveConstruct t _ _ _ ht htarget hsource | @moveAssign t _ _ _ _ ht hne htarget hsource hheld
  | @destroy t _ _ ht htarget hheld =>
    refine ⟨t, ?_, fun t' hne => ⟨rfl, fun g guard hg => ?_⟩⟩
    · simp only [Pool.move, Pool.set_phase, ht]
      exact trivial
    · simp only [Pool.move, Pool.set, update_apply]
      grind
  | releaseAssign ht hne htarget hsource hheld =>
    refine ⟨_, ?_, fun t' hne => ⟨update_of_ne hne _ _, fun g guard hg => ?_⟩⟩
    · simp [Pool.goto, Pool.set, Placed, Owned, hne]
    · simp only [Pool.goto, Pool.set, update_apply]
      grind
  | pop ht hconn | destroyed ht =>
    obtain ⟨held, -, htarget⟩ := hof ht
    refine ⟨_, ?_, fun t' hne => ⟨update_of_ne hne _ _, fun g guard hg => ?_⟩⟩
    · simp [Pool.goto, Placed]
    · simp only [Pool.goto, Pool.set, update_apply]
      grind
  | assigned ht hsource =>
    obtain ⟨-, ⟨held, -, htarget⟩, -⟩ := hof ht
    refine ⟨_, ?_, fun t' hne => ⟨update_of_ne hne _ _, fun g guard hg => ?_⟩⟩
    · simp [Pool.goto, Placed]
    · simp only [Pool.goto, Pool.move, Pool.set, update_apply]
      grind

theorem placed_step (hplaced : ∀ t, Placed s t (s.phase t)) (h : Step s s') (t : ι) : Placed s' t (s'.phase t) := by
  obtain ⟨t', hself, hothers⟩ := placed_by_step hplaced h
  by_cases hne : t = t'
  · exact hne ▸ hself
  · rw [(hothers t hne).1]
    exact (hplaced t).frame (hothers t hne).2

variable [Fintype ι] [Fintype γ]

def weight (f : Nat → Nat) (s : Pool ι γ) : Nat :=
  (s.available.map f).sum + total (fun slot => slot.connection.elim 0 f) s.slots +
    total (fun phase => phase.released.elim 0 f) s.phase

def one (c : Nat) (c' : Nat) : Nat := if c' = c then 1 else 0

structure Conserved (poolSize : Nat) (s : Pool ι γ) : Prop where
  placed : ∀ t, Placed s t (s.phase t)
  size : weight (fun _ => 1) s = poolSize
  once : ∀ c, weight (one c) s ≤ if c < s.opened then 1 else 0

omit [DecidableEq ι] in
theorem weight_set (f : Nat → Nat) (s : Pool ι γ) (g : γ) (slot : Slot ι) :
    weight f (s.set g slot) + (s.slots g).connection.elim 0 f = weight f s + slot.connection.elim 0 f := by
  have h := total_update (fun slot : Slot ι => slot.connection.elim 0 f) s.slots g slot
  simp only [weight, Pool.set]
  omega

omit [DecidableEq γ] in
theorem weight_goto (f : Nat → Nat) (s : Pool ι γ) (t : ι) (phase : Phase γ) :
    weight f (s.goto t phase) + (s.phase t).released.elim 0 f = weight f s + phase.released.elim 0 f := by
  have h := total_update (fun phase : Phase γ => phase.released.elim 0 f) s.phase t phase
  simp only [weight, Pool.goto]
  omega

omit [DecidableEq ι] [DecidableEq γ] in
theorem weight_available (f : Nat → Nat) (s : Pool ι γ) (available : List Nat) :
    weight f { s with available := available } + (s.available.map f).sum = weight f s + (available.map f).sum := by
  simp only [weight]
  omega

omit [DecidableEq ι] in
theorem weight_move (f : Nat → Nat) {target source : γ} (guard : Guard) (hne : target ≠ source)
    (htarget : (s.slots target).connection = none) (hsource : (s.slots source).connection = guard.connection) :
    weight f (s.move target source guard) = weight f s := by
  have h := weight_set f s target (.live guard)
  have h' := weight_set f (s.set target (.live guard)) source (.live .movedFrom)
  rw [htarget] at h
  rw [Pool.set_slots_of_ne hne.symm, hsource] at h'
  simp only [Slot.connection, Guard.connection_movedFrom, Option.elim_none] at h h'
  rw [Pool.move]
  omega

theorem weight_step (hplaced : ∀ t, Placed s t (s.phase t)) (h : Step s s') :
    (s'.opened = s.opened ∧ ∀ f, weight f s' = weight f s) ∨
      s'.opened = s.opened + 1 ∧ ∃ conn, ∀ f, weight f s' + f conn = weight f s + f s.opened := by
  cases h with
  | @acquire t target ht htarget =>
    refine .inl ⟨rfl, fun f => ?_⟩
    have hset := weight_set f s target (.used t .movedFrom)
    have hgoto := weight_goto f (s.set target (.used t .movedFrom)) t (.acquiring target)
    simp [htarget, ht] at hset hgoto ⊢
    omega
  | @pop t target conn rest ht hconn =>
    refine .inl ⟨rfl, fun f => ?_⟩
    have hat := hplaced t
    rw [ht] at hat
    obtain ⟨held, hheld, htarget⟩ := hat
    have havailable := weight_available f s rest
    have hset := weight_set f { s with available := rest } target (.live (.holding conn))
    have hgoto := weight_goto f ({ s with available := rest }.set target (.live (.holding conn))) t .idle
    simp [htarget, hheld, ht, hconn] at havailable hset hgoto ⊢
    omega
  | @moveConstruct t target source guard ht htarget hsource =>
    have hne : target ≠ source := by
      rintro rfl
      simp [htarget] at hsource
    exact .inl ⟨rfl, fun f => weight_move f guard hne (by rw [htarget]; rfl) (by rw [hsource]; rfl)⟩
  | selfAssign ht htarget => exact .inl ⟨rfl, fun f => rfl⟩
  | @moveAssign t target source held guard ht hne htarget hsource hheld =>
    exact .inl ⟨rfl, fun f => weight_move f guard hne (by rw [htarget]; exact hheld) (by rw [hsource]; rfl)⟩
  | @releaseAssign t target source held guard conn ht hne htarget hsource hheld =>
    refine .inl ⟨rfl, fun f => ?_⟩
    have htake := weight_set f s target (.used t held.emptied)
    have hset := weight_set f (s.set target (.used t held.emptied)) source (.used t guard)
    have hgoto := weight_goto f ((s.set target (.used t held.emptied)).set source (.used t guard)) t
      (.releasing conn (.assignment target source))
    rw [Pool.set_slots_of_ne hne.symm] at hset
    simp [htarget, hheld, hsource, ht] at htake hset hgoto ⊢
    omega
  | @destroy t target held ht htarget hheld =>
    refine .inl ⟨rfl, fun f => ?_⟩
    have hset := weight_set f s target .absent
    simpa [htarget, hheld] using hset
  | @releaseDestroy t target held conn ht htarget hheld =>
    refine .inl ⟨rfl, fun f => ?_⟩
    have htake := weight_set f s target (.used t held.emptied)
    have hgoto := weight_goto f (s.set target (.used t held.emptied)) t (.releasing conn (.destructor target))
    simp [htarget, hheld, ht] at htake hgoto ⊢
    omega
  | @reconnect t conn caller ht =>
    refine .inr ⟨rfl, conn, fun f => ?_⟩
    have hgoto := weight_goto f { s with opened := s.opened + 1 } t (.pushing s.opened caller)
    rw [ht] at hgoto
    exact hgoto
  | @keep t conn caller ht =>
    refine .inl ⟨rfl, fun f => ?_⟩
    have hgoto := weight_goto f s t (.pushing conn caller)
    simpa [ht] using hgoto
  | @push t conn caller ht =>
    refine .inl ⟨rfl, fun f => ?_⟩
    have havailable := weight_available f s (s.available ++ [conn])
    have hgoto := weight_goto f { s with available := s.available ++ [conn] } t (.pushed caller)
    simp [ht] at havailable hgoto ⊢
    omega
  | @destroyed t target ht =>
    refine .inl ⟨rfl, fun f => ?_⟩
    have hat := hplaced t
    rw [ht] at hat
    obtain ⟨held, hheld, htarget⟩ := hat
    have hset := weight_set f s target .absent
    have hgoto := weight_goto f (s.set target .absent) t .idle
    simp [htarget, hheld, ht] at hset hgoto ⊢
    omega
  | @assigned t target source guard ht hsource =>
    refine .inl ⟨rfl, fun f => ?_⟩
    have hat := hplaced t
    rw [ht] at hat
    obtain ⟨hne, ⟨held, hheld, htarget⟩, -⟩ := hat
    have hmove := weight_move f guard hne (by rw [htarget]; exact hheld) (by rw [hsource]; rfl)
    have hgoto := weight_goto f (s.move target source guard) t .idle
    simp [Pool.move, ht] at hmove hgoto ⊢
    omega

omit [DecidableEq ι] [DecidableEq γ] in
theorem weight_start (f : Nat → Nat) (poolSize : Nat) :
    weight f (start poolSize : Pool ι γ) = ((range poolSize).map f).sum := by
  simp [weight, start, total]

omit [DecidableEq ι] [DecidableEq γ] in
theorem conserved_start (poolSize : Nat) : Conserved poolSize (start poolSize : Pool ι γ) where
  placed t := trivial
  size := by
    rw [weight_start, map_const', length_range]
    exact sum_replicate_nat.trans (Nat.mul_one poolSize)
  once c := by
    have hcount : ((range poolSize).map (one c)).sum = (range poolSize).count c := by
      induction range poolSize with
      | nil => rfl
      | cons c' rest ih => by_cases hc : c' = c <;> simp [one, hc, ih, Nat.add_comm]
    rw [weight_start, hcount]
    by_cases hc : c < poolSize <;> simp [start, hc]

theorem Conserved.step (h : Conserved poolSize s) (hstep : Step s s') : Conserved poolSize s' := by
  obtain ⟨hopened, hweight⟩ | ⟨hopened, conn, hweight⟩ := weight_step h.placed hstep
  · exact ⟨placed_step h.placed hstep, by rw [hweight, h.size], fun c => by rw [hweight, hopened]; exact h.once c⟩
  · refine ⟨placed_step h.placed hstep, ?_, fun c => ?_⟩
    · have hsize := hweight fun _ => 1
      rw [h.size] at hsize
      exact Nat.add_right_cancel hsize
    · have hone := hweight (one c)
      have honce := h.once c
      rw [one, one] at hone
      split_ifs at hone honce ⊢ <;> omega

omit [DecidableEq ι] [DecidableEq γ] in
theorem weight_one (s : Pool ι γ) : weight (fun _ => 1) s = s.available.length +
    (Finset.univ.filter fun g => (s.slots g).connection.isSome).card +
    (Finset.univ.filter fun t => (s.phase t).released.isSome).card := by
  have helim : ∀ o : Option Nat, o.elim 0 (fun _ => 1) = if o.isSome then 1 else 0 := by
    intro o
    cases o <;> rfl
  simp only [weight, total, helim, Finset.card_filter, map_const', sum_replicate_nat, Nat.mul_one]

omit [DecidableEq ι] in
theorem Conserved.exclusive (h : Conserved poolSize s) {conn : Nat} {g : γ} (hg : (s.slots g).connection = some conn) :
    (∀ g', (s.slots g').connection = some conn → g' = g) ∧ conn ∉ s.available ∧
      ∀ t, (s.phase t).released ≠ some conn := by
  have honce : weight (one conn) s ≤ 1 := (h.once conn).trans (by split <;> simp)
  have hrest := weight_set (one conn) s g .absent
  rw [hg, Option.elim_some, one, if_pos rfl, Slot.connection, Option.elim_none] at hrest
  have hzero : weight (one conn) (s.set g .absent) = 0 := by omega
  simp only [weight, Nat.add_eq_zero_iff] at hzero
  obtain ⟨⟨havailable, hslots⟩, hphase⟩ := hzero
  refine ⟨fun g' hg' => ?_, fun hin => ?_, fun t ht => ?_⟩
  · by_contra hne
    have hle := le_total (fun slot : Slot ι => slot.connection.elim 0 (one conn)) (s.set g .absent).slots g'
    rw [hslots, Pool.set_slots_of_ne hne, hg'] at hle
    simp [one] at hle
  · have hle := single_le_sum (l := s.available.map (one conn)) (by simp) 1
      (mem_map.2 ⟨conn, hin, by simp [one]⟩)
    rw [show (s.set g .absent).available = s.available from rfl] at havailable
    omega
  · have hle := le_total (fun phase : Phase γ => phase.released.elim 0 (one conn)) s.phase t
    rw [show (s.set g .absent).phase = s.phase from rfl] at hphase
    rw [hphase, ht] at hle
    simp [one] at hle

/-- The connections of the pool are in its queue, in one guard each, or on their way back. -/
theorem connections_conserved (poolSize : Nat) (s : Pool ι γ) (h : Reach (· = start poolSize) Step s) :
    s.available.length + (Finset.univ.filter fun g => (s.slots g).connection.isSome).card +
      (Finset.univ.filter fun t => (s.phase t).released.isSome).card = poolSize ∧
    ∀ g conn, (s.slots g).connection = some conn →
      (∀ g', (s.slots g').connection = some conn → g' = g) ∧ conn ∉ s.available ∧
        ∀ t, (s.phase t).released ≠ some conn := by
  have hconserved : Conserved poolSize s := by
    refine h.invariant ?_ fun _ _ h hstep => h.step hstep
    rintro s rfl
    exact conserved_start poolSize
  exact ⟨(weight_one s).symm.trans hconserved.size, fun g conn hg => hconserved.exclusive hg⟩

/-- The only connection of a pool is acquired into one guard and moved to another. -/
theorem moved_connection_conserved : ∃ s : Pool Unit Bool, Reach (· = start 1) Step s ∧
    (s.slots true).connection = none ∧ (s.slots false).connection = some 0 ∧
    s.available.length + (Finset.univ.filter fun g => (s.slots g).connection.isSome).card +
      (Finset.univ.filter fun t => (s.phase t).released.isSome).card = 1 := by
  have hstart : Reach (· = start 1) Step (start 1 : Pool Unit Bool) := .start rfl
  have hacquire := hstart.next (@Step.acquire _ _ _ _ _ () true rfl rfl)
  have hpop := hacquire.next (@Step.pop _ _ _ _ _ () true 0 [] rfl rfl)
  have hmove := hpop.next (@Step.moveConstruct _ _ _ _ _ () false true (.holding 0) rfl rfl rfl)
  exact ⟨_, hmove, rfl, rfl, (connections_conserved 1 _ hmove).1⟩

end Logistics.ConnectionPool
