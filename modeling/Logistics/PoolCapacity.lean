import Mathlib.Algebra.Order.BigOperators.Group.Finset
import Logistics.PoolRuns

namespace Logistics.BridgePool

open Finset Function

def State.load (size : Nat) (s : State) : Nat := ∑ i ∈ range s.started, (s.goroutines i).places size

def State.total (size : Nat) (s : State) : Nat := s.channel.length + s.load size

variable {size i loss : Nat} {s s' : State} {g : Goroutine}

theorem load_goto (size : Nat) (g : Goroutine) (hi : i < s.started) :
    (s.goto i g).load size + (s.goroutines i).places size = s.load size + g.places size := by
  have hmem : i ∈ range s.started := mem_range.mpr hi
  have hrest : ∑ j ∈ (range s.started).erase i, (update s.goroutines i g j).places size =
      ∑ j ∈ (range s.started).erase i, (s.goroutines j).places size := by
    refine sum_congr rfl fun j hj => ?_
    rw [update_of_ne (ne_of_mem_erase hj)]
  have hnew := add_sum_erase _ (fun j => (update s.goroutines i g j).places size) hmem
  have hold := add_sum_erase _ (fun j => (s.goroutines j).places size) hmem
  simp only [update_self, hrest] at hnew
  change ∑ j ∈ range s.started, (update s.goroutines i g j).places size + _ =
    ∑ j ∈ range s.started, (s.goroutines j).places size + _
  omega

theorem load_spawn : (s.spawn g).load size = s.load size + g.places size := by
  change ∑ j ∈ range (s.started + 1), (update s.goroutines s.started g j).places size = _
  rw [sum_range_succ, update_self]
  congr 1
  refine sum_congr rfl fun j hj => ?_
  rw [update_of_ne (Nat.ne_of_lt (mem_range.mp hj))]

theorem places_le_load (hi : i < s.started) : (s.goroutines i).places size ≤ s.load size :=
  single_le_sum (f := fun j => (s.goroutines j).places size) (fun _ _ => Nat.zero_le _) (mem_range.mpr hi)

theorem length_lt_of_places (htotal : s.total size ≤ size) (hi : i < s.started)
    (hplaces : 1 ≤ (s.goroutines i).places size) : s.channel.length < size := by
  have hle : _ ≤ s.load size := places_le_load hi
  rw [State.total] at htotal
  omega

theorem total_update (gain freed : Nat) (hi : i < s.started) (hstarted : s'.started = s.started)
    (hgoroutines : s'.goroutines = update s.goroutines i g)
    (hplaces : g.places size + freed = (s.goroutines i).places size + gain)
    (hchannel : s'.channel.length + gain + loss = s.channel.length + freed) : s'.total size + loss = s.total size := by
  have hload := load_goto size g hi
  have hsame : s'.load size = (s.goto i g).load size := by
    rw [State.load, hstarted, hgoroutines]
    rfl
  rw [State.total, State.total]
  omega

theorem total_spawn (s : State) (g : Goroutine) : (s.spawn g).total size = s.total size + g.places size := by
  change s.channel.length + (s.spawn g).load size = s.channel.length + s.load size + g.places size
  rw [load_spawn, Nat.add_assoc]

theorem total_advances (h : Inv size s) (htotal : s.total size ≤ size) (hi : i < s.started)
    (hadvances : Advances size s i (s.goroutines i) loss s') : s'.total size + loss = s.total size := by
  have hopens := (h.fits i).opens
  cases hadvances with
  | stay => rfl
  | goto hold hconn hkeeps | close hold hconn hkeeps | keep hold hne hawaits hconn hawaits' hkeeps
  | dial hold hconn hawaits' hkeeps => exact total_update _ _ hi rfl rfl (hkeeps.places hopens) rfl
  | receive hchannel hold hconn hawaits' hkeeps =>
    exact total_update _ _ hi rfl rfl (hkeeps.places hopens) (by rw [hchannel]; rfl)
  | deposit hroom hputs hold hne hawaits hconn hkeeps =>
    exact total_update _ _ hi rfl rfl (hkeeps.places hopens) List.length_append
  | overflow hfull hplaces hold hconn hkeeps =>
    exact absurd (length_lt_of_places htotal hi hplaces.ge) (Nat.not_lt.mpr hfull)
  | write hg => exact total_update 0 0 hi rfl rfl (by rw [hg]; rfl) rfl
  | @read c frame inbox g' hinbox hg =>
    have hplaces : g'.places size + 0 = (s.goroutines i).places size + 0 := by
      rcases hg with ⟨left, hg, rfl⟩ | ⟨hg, ⟨call, -, rfl⟩ | ⟨-, rfl⟩⟩ <;> rw [hg] <;> rfl
    exact total_update 0 0 hi rfl rfl hplaces rfl
  | fail hold hconn hkeeps =>
    rw [State.fail, total_spawn]
    exact total_update _ _ hi rfl rfl (hkeeps.places hopens) rfl
  | writeFail hg =>
    rw [State.fail, total_spawn]
    exact total_update 0 1 hi rfl rfl (by rw [hg]; rfl) rfl
  | @drain c channel hchannel hold =>
    change channel.length + s.load size + 1 = s.channel.length + s.load size
    rw [hchannel, List.length_cons, Nat.add_right_comm]
  | opened hg hcount =>
    rw [total_spawn]
    exact total_update 0 0 hi rfl rfl (by rw [hg]; exact (Nat.sub_eq_zero_of_le hcount).symm) rfl

theorem total_advance (h : Inv size s) (htotal : s.total size ≤ size) (i : Nat) (ok : Bool) :
    (advance size s i ok).total size + lossAt size s (.run i ok) = s.total size := by
  by_cases hi : i < s.started
  · exact total_advances h htotal hi (advances_advance size s i ok)
  · simp only [advance, lossAt, h.unborn i (Nat.le_of_not_lt hi), Nat.add_zero]

theorem total_step (h : Inv size s) (htotal : s.total size ≤ size) (event : Event) :
    (step size s event).total size + lossAt size s event = s.total size := by
  cases event with
  | start op =>
    cases op with
    | send | healthy => exact congrArg (s.channel.length + ·) load_spawn
    | close =>
      change (start s .close).total size = _
      rw [start]
      split
      next => rfl
      next => exact congrArg (s.channel.length + ·) load_spawn
  | run i ok => exact total_advance h htotal i ok
  | answer c call =>
    change (answer s c call).total size = _
    rw [answer]
    split <;> rfl
  | push c msgType => rfl

theorem total_init : init.total size = size := by
  change 0 + ∑ i ∈ range 1, _ = size
  rw [Nat.zero_add]
  rfl

theorem total_run_le (size : Nat) (events : List Event) : (run size events).total size ≤ size := by
  have hfold {s : State} (h : Inv size s) (htotal : s.total size ≤ size) :
      (events.foldl (step size) s).total size ≤ size := by
    induction events generalizing s with
    | nil => exact htotal
    | cons event events ih =>
      have hstep := total_step h htotal event
      exact ih (h.step event) (by omega)
  exact hfold inv_init total_init.le

end Logistics.BridgePool

namespace Logistics.BridgePool

open Finset

def Goroutine.uses (g : Goroutine) : Nat := if g.conn?.isSome ∨ g = .replaceCheck ∨ g = .replaceDial then 1 else 0

def State.inUse (s : State) : Nat := ∑ i ∈ range s.started, (s.goroutines i).uses

variable {size i : Nat} {s : State} {g : Goroutine}

theorem uses_le_places (h : g.Opens size i) : g.uses ≤ g.places size := by
  cases g with
  | openPush count c =>
    have hlt : count < size := h.2
    change 1 ≤ size - count
    omega
  | _ => simp [Goroutine.uses, Goroutine.conn?, Goroutine.places]

theorem Inv.inUse_le (h : Inv size s) : s.inUse ≤ s.load size := sum_le_sum fun i _ => uses_le_places (h.fits i).opens

theorem one_le_places {c : Nat} (h : g.Opens size i) (hc : g.conn? = some c) : 1 ≤ g.places size := by
  refine le_trans ?_ (uses_le_places h)
  rw [Goroutine.uses, if_pos (.inl (by rw [hc]; rfl))]

/-- Whatever the calls, the errors and the core do: a call of `Send` that returns a frame
returns the response to its own command, a connection is in one hand at most, and the
connections in the channel, borrowed or being replaced are at most as many as the pool is
large, so that there is room to put one back. -/
theorem send_returns_own_response (size : Nat) (events : List Event) :
    (∀ i frame, (run size events).goroutines i = .returned (.response frame) → frame = .commandResponse i) ∧
    (∀ i j c, ((run size events).goroutines i).conn? = some c → ((run size events).goroutines j).conn? = some c →
      i = j) ∧ (∀ i c, ((run size events).goroutines i).conn? = some c → c ∉ (run size events).channel) ∧
    (run size events).channel.Nodup ∧ (run size events).channel.length + (run size events).inUse ≤ size ∧
    ∀ i c, ((run size events).goroutines i).conn? = some c → (run size events).channel.length < size := by
  have h := inv_run size events
  have htotal := total_run_le size events
  refine ⟨?_, fun i j c hi hj => Option.some.inj (h.unique (some i) (some j) c hi hj), fun i c => h.not_mem_channel,
    h.nodup, ?_, ?_⟩
  · intro i frame hi
    have hresponse := (h.fits i).response frame
    rw [hi] at hresponse
    exact hresponse rfl
  · exact le_trans (Nat.add_le_add_left h.inUse_le _) htotal
  · intro i c hc
    exact length_lt_of_places htotal (h.lt_of_hand hc) (one_le_places (h.fits i).opens hc)

def oneSend : List Event :=
  [.run 0 true, .run 0 true, .run 0 true, .start .send, .run 2 true, .run 2 true, .push 0 "ACK", .answer 0 2,
    .run 2 true, .run 2 true, .run 2 true, .run 2 true]

theorem oneSend_returns : (run 1 oneSend).goroutines 2 = .returned (.response (.commandResponse 2)) ∧
    (run 1 oneSend).channel.length + (run 1 oneSend).inUse ≤ 1 :=
  ⟨by decide, (send_returns_own_response 1 oneSend).2.2.2.2.1⟩

end Logistics.BridgePool
