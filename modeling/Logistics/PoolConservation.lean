import Logistics.PoolCapacity
import Logistics.Reachability

namespace Logistics.BridgePool

open Function

structure Proceeds (s t : State) : Prop where
  done : t.done = s.done
  phase : ∀ j, Phase.Next t.channel (s.goroutines j).phase (t.goroutines j).phase

variable {size i c loss : Nat} {s t : State} {g : Goroutine}

theorem Proceeds.refl (s : State) : Proceeds s s := ⟨rfl, fun _ => .same _⟩

theorem proceeds_update (hdone : t.done = s.done) (hgoroutines : t.goroutines = update s.goroutines i g)
    (hphase : Phase.Next t.channel (s.goroutines i).phase g.phase) : Proceeds s t := by
  refine ⟨hdone, fun j => ?_⟩
  rw [hgoroutines]
  by_cases hj : j = i
  · rw [hj, update_self]
    exact hphase
  · rw [update_of_ne hj]
    exact .same _

theorem Proceeds.spawn (h : Proceeds s t) (hunborn : t.goroutines t.started = .unborn) (hphase : g.phase = .other) :
    Proceeds s (t.spawn g) := by
  refine ⟨h.done, fun j => ?_⟩
  have hj := h.phase j
  change Phase.Next t.channel _ (update t.goroutines t.started g j).phase
  by_cases hnew : j = t.started
  · rw [hnew, hunborn] at hj
    rw [hnew, update_self, hphase]
    exact hj
  · rw [update_of_ne hnew]
    exact hj

theorem proceeds_advances (h : Inv size s) (hi : i < s.started)
    (hadvances : Advances size s i (s.goroutines i) loss t) : Proceeds s t := by
  have hunborn (g : Goroutine) : (s.goto i g).goroutines s.started = .unborn := by
    change update s.goroutines i _ s.started = _
    rw [update_of_ne (Nat.ne_of_gt hi), h.unborn _ (Nat.le_refl _)]
  cases hadvances with
  | stay => exact .refl s
  | goto hold hconn hkeeps | overflow hfull hplaces hold hconn hkeeps | close hold hconn hkeeps
  | keep hold hne hawaits hconn hawaits' hkeeps | receive hchannel hold hconn hawaits' hkeeps
  | deposit hroom hputs hold hne hawaits hconn hkeeps | dial hold hconn hawaits' hkeeps =>
    exact proceeds_update rfl rfl hkeeps.phase
  | write hg => exact proceeds_update rfl rfl (by rw [hg]; exact .same _)
  | read hinbox hg =>
    refine proceeds_update rfl rfl ?_
    rcases hg with ⟨left, hg, rfl⟩ | ⟨hg, ⟨call, -, rfl⟩ | ⟨-, rfl⟩⟩ <;> rw [hg] <;> exact .same _
  | fail hold hconn hkeeps => exact Proceeds.spawn (proceeds_update rfl rfl hkeeps.phase) (hunborn _) rfl
  | writeFail hg => exact Proceeds.spawn (proceeds_update rfl rfl (by rw [hg]; exact .same _)) (hunborn _) rfl
  | drain => exact ⟨rfl, fun _ => .same _⟩
  | opened hg hcount => exact Proceeds.spawn (proceeds_update rfl rfl (by rw [hg]; exact .opened)) (hunborn _) rfl

theorem proceeds_advance (h : Inv size s) (i : Nat) (ok : Bool) : Proceeds s (advance size s i ok) := by
  by_cases hi : i < s.started
  · exact proceeds_advances h hi (advances_advance size s i ok)
  · simp only [advance, h.unborn i (Nat.le_of_not_lt hi)]
    exact .refl s

open Finset Reachability

def Goroutine.resting : Goroutine → Bool
  | .unborn | .keepaliveLoop | .returned _ => true
  | _ => false

def State.AtRest (s : State) : Prop := ∀ i < s.started, (s.goroutines i).resting = true

instance decidableAtRest (s : State) : Decidable s.AtRest := Nat.decidableBallLT _ _

def State.IsOpen (s : State) : Prop := s.goroutines 0 = .returned .opened ∧ s.done = false

def State.CloseReturned (s : State) : Prop := ∃ i < s.started, s.goroutines i = .returned .closed

instance decidableCloseReturned (s : State) : Decidable s.CloseReturned := Nat.decidableExistsLT _

def DialFails (s : State) : Event → Prop
  | .run i false => s.goroutines i = .replaceDial
  | _ => False

instance decidableDialFails (s : State) : (event : Event) → Decidable (DialFails s event)
  | .run i false => inferInstanceAs (Decidable (s.goroutines i = .replaceDial))
  | .run _ true | .start _ | .answer _ _ | .push _ _ => isFalse id

/-- A goroutine that is about to put a connection into the channel moves on, and there is room. -/
def PutsBack (size : Nat) (s : State) : Event → Prop
  | .run i _ => (s.goroutines i).putsBack = true ∧ s.channel.length < size
  | _ => False

instance decidablePutsBack (size : Nat) (s : State) : (event : Event) → Decidable (PutsBack size s event)
  | .run i _ => inferInstanceAs (Decidable ((s.goroutines i).putsBack = true ∧ s.channel.length < size))
  | .start _ | .answer _ _ | .push _ _ => isFalse id

def State.Gone (s : State) : Prop := s.done = true ∨ (s.goroutines 0).phase = .openFailed

def State.ClosesDone (s : State) : Prop := ∀ i, (s.goroutines i).phase = .closing → s.done = true

variable {size i c : Nat} {s : State} {g : Goroutine}

theorem proceeds_step (h : Inv size s) (event : Event) : Proceeds s (step size s event) ∨
      ((step size s event).done = true ∧ (step size s event).channel = s.channel ∧
        ∀ j, ((step size s event).goroutines j).phase = (s.goroutines j).phase ∨
          ((step size s event).goroutines j).phase = .closing) := by
  have hunborn := h.unborn _ (Nat.le_refl s.started)
  cases event with
  | start op =>
    cases op with
    | send | healthy => exact .inl ((Proceeds.refl s).spawn hunborn rfl)
    | close =>
      change Proceeds s (start s .close) ∨ (start s .close).done = true ∧ (start s .close).channel = s.channel ∧
        ∀ j, ((start s .close).goroutines j).phase = (s.goroutines j).phase ∨
          ((start s .close).goroutines j).phase = .closing
      rw [start]
      split
      next => exact .inl (.refl s)
      next =>
        refine .inr ⟨rfl, rfl, fun j => ?_⟩
        change (update s.goroutines s.started _ j).phase = _ ∨
          (update s.goroutines s.started _ j).phase = _
        by_cases hj : j = s.started
        · rw [hj, update_self]
          exact .inr rfl
        · rw [update_of_ne hj]
          exact .inl rfl
  | run i ok => exact .inl (proceeds_advance h i ok)
  | answer c call =>
    left
    change Proceeds s (answer s c call)
    rw [answer]
    split
    next => exact ⟨rfl, fun _ => .same _⟩
    next => exact .refl s
  | push c msgType => exact .inl ⟨rfl, fun _ => .same _⟩

theorem State.Gone.step (hgone : s.Gone) (h : Inv size s) (event : Event) : (step size s event).Gone := by
  rcases proceeds_step h event with hproceeds | ⟨hdone, -, -⟩
  · rcases hgone with hdone | hfailed
    · exact .inl (hproceeds.done.trans hdone)
    · have hnext := hproceeds.phase 0
      rw [hfailed] at hnext
      right
      generalize ((BridgePool.step size s event).goroutines 0).phase = p at hnext
      cases hnext
      rfl
  · exact .inl hdone

theorem State.ClosesDone.step (hcloses : s.ClosesDone) (h : Inv size s) (event : Event) :
    (step size s event).ClosesDone := by
  intro i hi
  rcases proceeds_step h event with hproceeds | ⟨hdone, -, -⟩
  · have hnext := hproceeds.phase i
    rw [hi] at hnext
    rw [hproceeds.done]
    refine hcloses i ?_
    generalize (s.goroutines i).phase = p at hnext
    cases hnext
    rfl
  · exact hdone

theorem loss_eq_zero_iff (h : Inv size s) (hcloses : s.ClosesDone) {event : Event}
    (hopen : ¬ (step size s event).Gone) : lossAt size s event = 0 ↔ ¬ DialFails s event := by
  have hgone : ¬ s.Gone := fun hgone => hopen (hgone.step h event)
  cases event with
  | start op | answer c call | push c msgType => exact ⟨fun _ hfails => hfails, fun _ => rfl⟩
  | run i ok =>
    have hopens := (h.fits i).opens
    cases hg : s.goroutines i with
    | opening count =>
      rw [hg] at hopens
      cases ok with
      | true => simp [lossAt, DialFails, hg]
      | false =>
        have hcount : ¬ count < size := by
          intro hlt
          refine hopen (.inr ?_)
          change ((advance size s i false).goroutines 0).phase = _
          simp only [advance, hg, if_pos hlt]
          change (update s.goroutines i _ 0).phase = _
          rw [hopens.1]
          rfl
        simp only [lossAt, DialFails, hg]
        simp
        omega
    | drainOpen =>
      rw [hg] at hopens
      have hzero : i = 0 := hopens
      exact absurd (.inr (by rw [← hzero, hg]; rfl)) hgone
    | drainClose => exact absurd (.inl (hcloses i (by rw [hg]; rfl))) hgone
    | replaceCheck =>
      have hdone : s.done = false := Bool.eq_false_iff.mpr fun hdone => hgone (.inl hdone)
      cases ok <;> simp [lossAt, DialFails, hg, hdone]
    | _ => cases ok <;> simp [lossAt, DialFails, hg]

theorem total_eq_iff (h : Inv size s) (hcloses : s.ClosesDone) (htotal : s.total size ≤ size) (events : List Event)
    (hopen : ¬ (events.foldl (step size) s).Gone) : (events.foldl (step size) s).total size = size ↔
      s.total size = size ∧ Along (step size) (fun s event => ¬ DialFails s event) s events := by
  have hback {s : State} (h : Inv size s) (events : List Event) (hgone : s.Gone) :
      (events.foldl (step size) s).Gone := by
    induction events generalizing s with
    | nil => exact hgone
    | cons event events ih => exact ih (h.step event) (hgone.step h event)
  induction events generalizing s with
  | nil => exact (and_iff_left trivial).symm
  | cons event events ih =>
    have hloss := total_step h htotal event
    have hstill : ¬ (step size s event).Gone := fun hgone => hopen (hback (h.step event) events hgone)
    have hfails := loss_eq_zero_iff h hcloses hstill
    have hle : (step size s event).total size ≤ size := by omega
    refine (ih (h.step event) (hcloses.step h event) hle hopen).trans ?_
    rw [Along, ← hfails]
    constructor
    · rintro ⟨hsize, hrest⟩
      exact ⟨by omega, by omega, hrest⟩
    · rintro ⟨hsize, hzero, hrest⟩
      exact ⟨by omega, hrest⟩

theorem State.AtRest.load_eq (hrest : s.AtRest) : s.load size = 0 := by
  refine sum_eq_zero fun i hi => ?_
  have hresting := hrest i (mem_range.mp hi)
  cases hg : s.goroutines i with
  | unborn | keepaliveLoop | returned result => rfl
  | _ =>
    rw [hg] at hresting
    cases hresting

theorem State.AtRest.conn?_eq (hrest : s.AtRest) (h : Inv size s) (i : Nat) : (s.goroutines i).conn? = none := by
  by_cases hi : i < s.started
  · have hresting := hrest i hi
    cases hg : s.goroutines i with
    | unborn | keepaliveLoop | returned result => rfl
    | _ =>
      rw [hg] at hresting
      cases hresting
  · rw [h.unborn i (Nat.le_of_not_lt hi)]
    rfl

theorem phase_eq_closed (hphase : g.phase = .closed) : g = .returned .closed := by
  cases g with
  | returned result =>
    cases result with
    | closed => rfl
    | _ => cases hphase
  | _ => cases hphase

theorem length_channel_step {event : Event} (h : ¬ PutsBack size s event) :
    (step size s event).channel.length ≤ s.channel.length := by
  cases event with
  | start op =>
    cases op with
    | send | healthy => exact Nat.le_refl _
    | close =>
      rw [step, start]
      split <;> exact Nat.le_refl _
  | run i ok =>
    have hadvances := advances_advance size s i ok
    change (advance size s i ok).channel.length ≤ _
    generalize advance size s i ok = t at hadvances ⊢
    generalize lossAt size s (.run i ok) = loss at hadvances
    cases hadvances with
    | deposit hroom hputs => exact absurd ⟨hputs, hroom⟩ h
    | receive hchannel | drain hchannel =>
      rw [hchannel]
      exact Nat.le_succ _
    | _ => exact Nat.le_refl _
  | answer c call =>
    rw [step, answer]
    split <;> exact Nat.le_refl _
  | push c msgType => exact Nat.le_refl _

theorem Inv.closeReturned (h : Inv size s) (hphase : (s.goroutines i).phase = .closed) : s.CloseReturned := by
  refine ⟨i, Nat.lt_of_not_le fun hle => ?_, phase_eq_closed hphase⟩
  rw [h.unborn i hle] at hphase
  cases hphase

theorem channel_eq_nil_of_closed {events : List Event} (hputs : Along (step size)
    (fun s event => s.CloseReturned → ¬ PutsBack size s event) init events)
    (hclosed : (run size events).CloseReturned) : (run size events).channel = [] := by
  have hinv : Inv size (run size events) ∧ ((run size events).CloseReturned → (run size events).channel = []) := by
    refine Along.invariant (P := fun s => Inv size s ∧ (s.CloseReturned → s.channel = [])) ?_ ?_ hputs
    · rintro s event ⟨h, hnil⟩ hput
      refine ⟨h.step event, ?_⟩
      rintro ⟨i, -, hi⟩
      have hkept (hi : (s.goroutines i).phase = .closed) : (step size s event).channel = [] := by
        have hreturned := h.closeReturned hi
        have hlength := length_channel_step (hput hreturned)
        rw [hnil hreturned] at hlength
        exact List.length_eq_zero_iff.mp (Nat.le_zero.mp hlength)
      rcases proceeds_step h event with hproceeds | ⟨-, -, hphase⟩
      · have hnext := hproceeds.phase i
        rw [hi] at hnext
        generalize hp : (s.goroutines i).phase = p at hnext
        cases hnext with
        | same => exact hkept hp
        | closed hnil => exact hnil
      · rcases hphase i with hsame | hclosing
        · exact hkept (hsame.symm.trans (by rw [hi]; rfl))
        · rw [hi] at hclosing
          cases hclosing
    · refine ⟨inv_init, ?_⟩
      rintro ⟨i, -⟩
      rfl
  exact hinv.2 hclosed

/-- At rest, an open pool has all its connections exactly if no dial of a replacement has
failed. After `Close` has returned they are all closed, if none was put back since. -/
theorem pool_conserved (size : Nat) (events : List Event) : ((run size events).IsOpen → (run size events).AtRest →
      ((run size events).channel.length = size ↔ Along (step size) (fun s event => ¬ DialFails s event) init events)) ∧
    (Along (step size) (fun s event => s.CloseReturned → ¬ PutsBack size s event) init events →
      (run size events).CloseReturned → (run size events).AtRest →
      ∀ c < (run size events).dialled, ((run size events).conns c).closed = true) := by
  have h := inv_run size events
  constructor
  · rintro ⟨hopened, hdone⟩ hrest
    have hgone : ¬ (run size events).Gone := by
      rintro (hgone | hgone)
      · rw [hdone] at hgone
        cases hgone
      · rw [hopened] at hgone
        cases hgone
    have hcloses : init.ClosesDone := by
      intro i hi
      by_cases hzero : i = 0
      · rw [hzero] at hi
        cases hi
      · have hinit : Inv size init := inv_init
        rw [hinit.unborn i (Nat.one_le_iff_ne_zero.mpr hzero)] at hi
        cases hi
    have hiff := total_eq_iff inv_init hcloses total_init.le events hgone
    rw [and_iff_right total_init] at hiff
    rw [← hiff]
    change _ ↔ (run size events).channel.length + (run size events).load size = size
    rw [hrest.load_eq, Nat.add_zero]
  · intro hputs hclosed hrest c hc
    have hnil := channel_eq_nil_of_closed hputs hclosed
    by_contra hopen
    obtain ⟨o, ho⟩ := h.custody c hc (Bool.eq_false_iff.mpr hopen)
    cases o with
    | none => rw [State.Has, hnil] at ho; cases ho
    | some i => rw [State.Has, hrest.conn?_eq h] at ho; cases ho

def openOne : List Event := [.run 0 true, .run 0 true, .run 0 true]

def sendReplaced : List Event :=
  openOne ++ [.start .send, .run 2 true, .run 2 false, .run 3 true, .run 3 true, .run 3 true, .run 3 true]

def thenClosed : List Event := sendReplaced ++ [.start .close, .run 4 true, .run 4 true, .run 1 false]

theorem replaced_and_closed : ((run 1 sendReplaced).dialled = 2 ∧ (run 1 sendReplaced).channel.length = 1) ∧
    (run 1 thenClosed).CloseReturned ∧ ∀ c < 2, ((run 1 thenClosed).conns c).closed = true := by
  have hopen : (run 1 sendReplaced).IsOpen := ⟨by decide, by decide⟩
  have hclosed : (run 1 thenClosed).CloseReturned := by decide
  exact ⟨⟨by decide, ((pool_conserved 1 sendReplaced).1 hopen (by decide)).mpr (by decide)⟩, hclosed,
    (pool_conserved 1 thenClosed).2 (by decide) hclosed (by decide)⟩

def outage : List Event := openOne ++ [.start .send, .run 2 true, .run 2 false, .run 3 true, .run 3 true, .run 3 false]

def closeDuringSend : List Event :=
  openOne ++ [.start .send, .run 2 true, .start .close, .run 3 true, .run 2 true, .answer 0 2, .run 2 true, .run 2 true,
    .run 2 true, .run 1 false]

theorem outage_shrinks_pool : ((run 1 outage).IsOpen ∧ (run 1 outage).AtRest ∧ (run 1 outage).channel.length ≠ 1) ∧
    ((run 1 closeDuringSend).CloseReturned ∧ (run 1 closeDuringSend).AtRest ∧
      ((run 1 closeDuringSend).conns 0).closed = false ∧ 0 < (run 1 closeDuringSend).dialled) :=
  ⟨⟨⟨by decide, by decide⟩, by decide, by decide⟩, by decide, by decide, by decide, by decide⟩

end Logistics.BridgePool
