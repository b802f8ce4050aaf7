import Mathlib.Data.List.Nodup

namespace Logistics.BridgePool

open Function List

inductive Frame
  | commandResponse (call : Nat)
  | other (msgType : String)
deriving DecidableEq

structure Conn where
  closed : Bool
  healthy : Bool
  inbox : List Frame
  unanswered : List Nat
deriving DecidableEq

inductive Result
  | response (frame : Frame)
  | failed
  | healthy (answer : Bool)
  | opened
  | openFailed
  | closed
  | stopped
  | replaced
  | dropped
deriving DecidableEq

/-- A goroutine at the place where it has stopped. `opening`: the loop of `Open`;
`round`: the loops of `sendKeepalives` and `Healthy` with the turns that are left. -/
inductive Goroutine
  | unborn
  | opening (count : Nat)
  | openPush (count conn : Nat)
  | drainOpen
  | drainClose
  | keepaliveLoop
  | keepaliveRound (left : Nat)
  | keepaliveWrite (left conn : Nat)
  | keepaliveRead (left conn : Nat)
  | keepaliveBack (left conn : Nat)
  | healthyRound (left : Nat)
  | healthyCheck (left conn : Nat)
  | healthyBack (left conn : Nat) (answer : Bool)
  | sendGet
  | sendWrite (conn : Nat)
  | sendRead (conn : Nat)
  | sendAck (conn : Nat) (frame : Frame)
  | sendPut (conn : Nat) (frame : Frame)
  | replaceClose (conn : Nat)
  | replaceCheck
  | replaceDial
  | replacePut (conn : Nat)
  | returned (result : Result)
deriving DecidableEq

structure State where
  channel : List Nat
  done : Bool
  conns : Nat → Conn
  dialled : Nat
  goroutines : Nat → Goroutine
  started : Nat

inductive Op
  | send
  | healthy
  | close
deriving DecidableEq

inductive Event
  | start (op : Op)
  | run (i : Nat) (ok : Bool)
  | answer (conn call : Nat)
  | push (conn : Nat) (msgType : String)
deriving DecidableEq

namespace State

def goto (s : State) (i : Nat) (g : Goroutine) : State := { s with goroutines := update s.goroutines i g }

def spawn (s : State) (g : Goroutine) : State :=
  { s with goroutines := update s.goroutines s.started g, started := s.started + 1 }

def setConn (s : State) (c : Nat) (conn : Conn) : State := { s with conns := update s.conns c conn }

def close (s : State) (c : Nat) : State := s.setConn c { s.conns c with closed := true, healthy := false }

def take (s : State) (i : Nat) (next : Nat → Goroutine) (empty : Goroutine) : State :=
  match s.channel with
  | [] => s.goto i empty
  | c :: channel => { s with channel }.goto i (next c)

def give (size : Nat) (s : State) (i c : Nat) (next : Goroutine) : State :=
  if s.channel.length < size then { s with channel := s.channel ++ [c] }.goto i next else s

def put (size : Nat) (s : State) (i c : Nat) (next : Goroutine) : State :=
  if s.channel.length < size then { s with channel := s.channel ++ [c] }.goto i next
  else (s.close c).goto i next

def dial (s : State) (i : Nat) (next : Nat → Goroutine) : State :=
  { s with
    conns := update s.conns s.dialled ⟨false, true, [], []⟩
    dialled := s.dialled + 1 }.goto i (next s.dialled)

def fail (s : State) (i c : Nat) (next : Goroutine) : State :=
  ((s.setConn c { s.conns c with healthy := false }).goto i next).spawn (.replaceClose c)

def drain (s : State) (i : Nat) (next : Goroutine) : State :=
  match s.channel with
  | [] => s.goto i next
  | c :: channel => { s with channel }.close c

def read (s : State) (i c : Nat) (next : Frame → Goroutine) : State :=
  match (s.conns c).inbox with
  | [] => s
  | frame :: inbox => (s.setConn c { s.conns c with inbox }).goto i (next frame)

def command (s : State) (i c : Nat) : State :=
  s.setConn c { s.conns c with unanswered := (s.conns c).unanswered ++ [i] }

end State

def advance (size : Nat) (s : State) (i : Nat) (ok : Bool) : State :=
  match s.goroutines i, ok with
  | .opening count, true =>
    if count < size then s.dial i (.openPush count)
    else (s.goto i (.returned .opened)).spawn .keepaliveLoop
  | .opening count, false => if count < size then s.goto i .drainOpen else s
  | .openPush count c, _ => s.give size i c (.opening (count + 1))
  | .drainOpen, _ => s.drain i (.returned .openFailed)
  | .drainClose, _ => s.drain i (.returned .closed)
  | .keepaliveLoop, true => s.goto i (.keepaliveRound s.channel.length)
  | .keepaliveLoop, false => if s.done then s.goto i (.returned .stopped) else s
  | .keepaliveRound 0, _ => s.goto i .keepaliveLoop
  | .keepaliveRound (left + 1), _ => s.take i (.keepaliveWrite left) .keepaliveLoop
  | .keepaliveWrite left c, true => s.goto i (.keepaliveRead left c)
  | .keepaliveWrite left c, false => s.fail i c (.keepaliveRound left)
  | .keepaliveRead left c, true => s.read i c fun _ => .keepaliveBack left c
  | .keepaliveRead left c, false => s.fail i c (.keepaliveRound left)
  | .keepaliveBack left c, _ => s.give size i c (.keepaliveRound left)
  | .healthyRound 0, _ => s.goto i (.returned (.healthy false))
  | .healthyRound (left + 1), _ => s.take i (.healthyCheck left) (.returned (.healthy false))
  | .healthyCheck left c, _ => s.goto i (.healthyBack left c (s.conns c).healthy)
  | .healthyBack left c answer, _ => s.give size i c (if answer then .returned (.healthy true) else .healthyRound left)
  | .sendGet, true => s.take i .sendWrite .sendGet
  | .sendGet, false => s.goto i (.returned .failed)
  | .sendWrite c, true => (s.command i c).goto i (.sendRead c)
  | .sendWrite c, false => (s.command i c).fail i c (.returned .failed)
  | .sendRead c, true => s.read i c fun
      | .commandResponse call => .sendAck c (.commandResponse call)
      | .other _ => .sendRead c
  | .sendRead c, false => s.fail i c (.returned .failed)
  | .sendAck c frame, true => s.goto i (.sendPut c frame)
  | .sendAck c _, false => s.fail i c (.returned .failed)
  | .sendPut c frame, _ => s.put size i c (.returned (.response frame))
  | .replaceClose c, _ => (s.close c).goto i .replaceCheck
  | .replaceCheck, _ => s.goto i (if s.done then .returned .dropped else .replaceDial)
  | .replaceDial, true => s.dial i .replacePut
  | .replaceDial, false => s.goto i (.returned .dropped)
  | .replacePut c, _ => s.put size i c (.returned .replaced)
  | .unborn, _ => s
  | .returned _, _ => s

def start (s : State) : Op → State
  | .send => s.spawn .sendGet
  | .healthy => s.spawn (.healthyRound s.channel.length)
  | .close => if s.done then s else { s with done := true }.spawn .drainClose

def answer (s : State) (c call : Nat) : State :=
  if call ∈ (s.conns c).unanswered then
    s.setConn c { s.conns c with
      inbox := (s.conns c).inbox ++ [.commandResponse call]
      unanswered := (s.conns c).unanswered.erase call }
  else s

def step (size : Nat) (s : State) : Event → State
  | .start op => start s op
  | .run i ok => advance size s i ok
  | .answer c call => answer s c call
  | .push c msgType => s.setConn c { s.conns c with inbox := (s.conns c).inbox ++ [.other msgType] }

def init : State where
  channel := []
  done := false
  conns _ := ⟨false, true, [], []⟩
  dialled := 0
  goroutines := update (fun _ => .unborn) 0 (.opening 0)
  started := 1

def run (size : Nat) (events : List Event) : State := events.foldl (step size) init

def Frame.call? : Frame → Option Nat
  | .commandResponse call => some call
  | .other _ => none

def Conn.outstanding (conn : Conn) : List Nat := conn.inbox.filterMap Frame.call? ++ conn.unanswered

namespace Goroutine

def conn? : Goroutine → Option Nat
  | .openPush _ c | .keepaliveWrite _ c | .keepaliveRead _ c | .keepaliveBack _ c | .healthyCheck _ c
  | .healthyBack _ c _ | .sendWrite c | .sendRead c | .sendAck c _ | .sendPut c _ | .replaceClose c
  | .replacePut c => some c
  | _ => none

def response? : Goroutine → Option Frame
  | .sendAck _ frame | .sendPut _ frame | .returned (.response frame) => some frame
  | _ => none

def awaits (i : Nat) : Goroutine → List Nat
  | .sendRead _ => [i]
  | _ => []

def Opens (size i : Nat) : Goroutine → Prop
  | .opening count => i = 0 ∧ count ≤ size
  | .openPush count _ => i = 0 ∧ count < size
  | .drainOpen => i = 0
  | _ => True

end Goroutine

structure Fits (size : Nat) (conns : Nat → Conn) (i : Nat) (g : Goroutine) : Prop where
  outstanding : ∀ c, g.conn? = some c → g = .replaceClose c ∨ (conns c).outstanding.Perm (g.awaits i)
  response : ∀ frame, g.response? = some frame → frame = .commandResponse i
  opens : g.Opens size i

theorem Fits.congr {size i : Nat} {conns conns' : Nat → Conn} {g : Goroutine} (h : Fits size conns i g)
    (hconns : ∀ c, g.conn? = some c → (conns' c).outstanding.Perm (conns c).outstanding) : Fits size conns' i g where
  outstanding c hc := (h.outstanding c hc).imp_right (hconns c hc).trans
  response := h.response
  opens := h.opens

/-- The connection is in the channel, or a goroutine has it. -/
def State.Has (s : State) : Option Nat → Nat → Prop
  | none, c => c ∈ s.channel
  | some i, c => (s.goroutines i).conn? = some c

structure Inv (size : Nat) (s : State) : Prop where
  fits : ∀ i, Fits size s.conns i (s.goroutines i)
  unborn : ∀ i, s.started ≤ i → s.goroutines i = .unborn
  idle : ∀ c ∈ s.channel, (s.conns c).outstanding = []
  nodup : s.channel.Nodup
  unique : ∀ o o' c, s.Has o c → s.Has o' c → o = o'
  dialled : ∀ o c, s.Has o c → c < s.dialled
  custody : ∀ c < s.dialled, (s.conns c).closed = false → ∃ o, s.Has o c

variable {size i c : Nat} {s s' : State} {g : Goroutine}

theorem inv_init : Inv size init := by
  have hrest {i : Nat} (hi : i ≠ 0) : init.goroutines i = .unborn := by
    change update (fun _ => Goroutine.unborn) 0 (.opening 0) i = _
    rw [update_of_ne hi]
  have hconn (i : Nat) : (init.goroutines i).conn? = none := by
    by_cases hi : i = 0
    · rw [hi]
      rfl
    · rw [hrest hi]
      rfl
  have hhas (o : Option Nat) (c : Nat) : ¬ init.Has o c := by
    cases o with
    | none => exact not_mem_nil
    | some i => simp [State.Has, hconn]
  refine ⟨fun i => ?_, fun i hi => hrest (Nat.ne_of_gt hi), fun c hc => absurd hc not_mem_nil, nodup_nil,
    fun o _ c ho => absurd ho (hhas o c), fun o c ho => absurd ho (hhas o c), fun c hc => absurd hc (Nat.not_lt_zero c)⟩
  by_cases hi : i = 0
  · subst hi
    exact ⟨fun c hc => (by cases hc), fun frame hframe => (by cases hframe), rfl, Nat.zero_le _⟩
  · rw [hrest hi]
    exact ⟨fun c hc => (by cases hc), fun frame hframe => (by cases hframe), trivial⟩

theorem pass_iff {P : Nat → Prop} {q : Prop} (hc : ¬ P c) (hq : ¬ q) (d : Nat) : P d ↔ P d ∧ d ≠ c ∨ d = c ∧ q := by
  grind

theorem closed_close (s : State) (c : Nat) : ((s.close c).conns c).closed = true := by
  change (update s.conns c _ c).closed = true
  rw [update_self]

namespace Inv

variable (h : Inv size s)
include h

theorem not_mem_channel (hc : (s.goroutines i).conn? = some c) : c ∉ s.channel := by
  intro hmem
  cases h.unique none (some i) c hmem hc

/-- The connection `c` passes to the holder `target`, or nobody has it any more, and the
others stay where they are. -/
theorem pass (c : Nat) (target : Option (Option Nat))
    (hhas : ∀ o d, s'.Has o d ↔ s.Has o d ∧ d ≠ c ∨ d = c ∧ target = some o)
    (hdialled : s'.dialled = s.dialled ∨ c = s.dialled ∧ s'.dialled = c + 1) (hc : target ≠ none → c < s'.dialled)
    (hconns : ∀ d, d ≠ c → (s'.conns d).closed = (s.conns d).closed ∧ (s'.conns d).outstanding.Perm (s.conns d).outstanding)
    (hclosed : target = none → c < s'.dialled → (s'.conns c).closed = true)
    (hidle : target = some none → (s'.conns c).outstanding = []) (hnodup : s'.channel.Nodup)
    (hfits : ∀ j, s'.goroutines j = s.goroutines j ∧ target ≠ some (some j) ∨ Fits size s'.conns j (s'.goroutines j))
    (hunborn : ∀ j, s'.started ≤ j → s'.goroutines j = .unborn) : Inv size s' where
  fits j := by
    rcases hfits j with ⟨heq, hne⟩ | hfits
    · refine heq ▸ (h.fits j).congr fun d hd => (hconns d fun hdc => ?_).2
      have hhad : s'.Has (some j) d := (congrArg Goroutine.conn? heq).trans hd
      rcases (hhas (some j) d).mp hhad with ⟨-, hdc'⟩ | ⟨-, htarget⟩
      · exact hdc' hdc
      · exact hne htarget
    · exact hfits
  unborn := hunborn
  idle d hd := by
    rcases (hhas none d).mp hd with ⟨hd, hdc⟩ | ⟨rfl, htarget⟩
    · have hperm := (hconns d hdc).2
      rw [h.idle d hd] at hperm
      exact hperm.eq_nil
    · exact hidle htarget
  nodup := hnodup
  unique o o' d ho ho' := by
    rcases (hhas o d).mp ho with ⟨ho, hdc⟩ | ⟨rfl, htarget⟩
    · rcases (hhas o' d).mp ho' with ⟨ho', -⟩ | ⟨hdc', -⟩
      · exact h.unique o o' d ho ho'
      · exact absurd hdc' hdc
    · rcases (hhas o' d).mp ho' with ⟨-, hdd⟩ | ⟨-, htarget'⟩
      · exact absurd rfl hdd
      · exact Option.some.inj (htarget.symm.trans htarget')
  dialled o d ho := by
    rcases (hhas o d).mp ho with ⟨ho, hdc⟩ | ⟨rfl, htarget⟩
    · have hlt := h.dialled o d ho
      omega
    · exact hc (by simp [htarget])
  custody d hd hopen := by
    by_cases hdc : d = c
    · subst hdc
      cases target with
      | none => exact absurd (hclosed rfl hd) (by simp [hopen])
      | some o => exact ⟨o, (hhas o d).mpr (.inr ⟨rfl, rfl⟩)⟩
    · obtain ⟨o, ho⟩ := h.custody d (by omega) ((hconns d hdc).1 ▸ hopen)
      exact ⟨o, (hhas o d).mpr (.inl ⟨ho, hdc⟩)⟩

theorem lt_started (hg : s.goroutines i = g) (hne : g ≠ .unborn) : i < s.started := by
  by_contra hlt
  exact hne (hg ▸ h.unborn i (Nat.le_of_not_lt hlt))

theorem lt_of_hand (hold : (s.goroutines i).conn? = some c) : i < s.started := by
  refine h.lt_started rfl fun hunborn => ?_
  rw [hunborn] at hold
  cases hold

theorem turn (hi : i < s.started) (c : Nat) (target : Option (Option Nat))
    (hgoroutines : s'.goroutines = update s.goroutines i g) (hstarted : s'.started = s.started)
    (hfree : ∀ j, j ≠ i → (s.goroutines j).conn? ≠ some c ∧ target ≠ some (some j))
    (hconn : ∀ d, g.conn? = some d ↔ (s.goroutines i).conn? = some d ∧ d ≠ c ∨ d = c ∧ target = some (some i))
    (hchannel : ∀ d, d ∈ s'.channel ↔ d ∈ s.channel ∧ d ≠ c ∨ d = c ∧ target = some none)
    (hdialled : s'.dialled = s.dialled ∨ c = s.dialled ∧ s'.dialled = c + 1) (hc : target ≠ none → c < s'.dialled)
    (hconns : ∀ d, d ≠ c → s'.conns d = s.conns d)
    (hclosed : target = none → c < s'.dialled → (s'.conns c).closed = true)
    (hidle : target = some none → (s'.conns c).outstanding = []) (hnodup : s'.channel.Nodup)
    (hfits : Fits size s'.conns i g) : Inv size s' := by
  have hother {j : Nat} (hj : j ≠ i) : s'.goroutines j = s.goroutines j := by rw [hgoroutines, update_of_ne hj]
  have hself : s'.goroutines i = g := by rw [hgoroutines, update_self]
  refine h.pass c target ?_ hdialled hc (fun d hd => ?_) hclosed hidle hnodup (fun j => ?_) fun j hj => ?_
  · rintro (_ | j) d
    · exact hchannel d
    · by_cases hj : j = i
      · rw [hj, State.Has, hself, hconn]
        rfl
      · rw [State.Has, hother hj, State.Has]
        refine ⟨fun hd => .inl ⟨hd, fun hdc => (hfree j hj).1 (hdc ▸ hd)⟩, ?_⟩
        rintro (⟨hd, -⟩ | ⟨-, htarget⟩)
        · exact hd
        · exact absurd htarget (hfree j hj).2
  · rw [hconns d hd]
    exact ⟨rfl, .refl _⟩
  · by_cases hj : j = i
    · rw [hj, hself]
      exact .inr hfits
    · exact .inl ⟨hother hj, (hfree j hj).2⟩
  · rw [hstarted] at hj
    rw [hother (by omega), h.unborn j hj]

theorem fresh (o : Option Nat) : ¬ s.Has o s.dialled := fun ho =>
  Nat.lt_irrefl _ (h.dialled o _ ho)

theorem goto (hi : i < s.started) (hconn : g.conn? = (s.goroutines i).conn?)
    (hfits : Fits size s.conns i g) : Inv size (s.goto i g) := by
  refine h.turn hi s.dialled none rfl rfl (fun j _ => ⟨h.fresh (some j), by simp⟩) ?_ ?_ (.inl rfl) (by simp)
    (fun _ _ => rfl) (fun _ hlt => absurd hlt (Nat.lt_irrefl _)) (by simp) h.nodup hfits
  · rw [hconn]
    exact pass_iff (h.fresh (some i)) (by simp)
  · exact pass_iff (h.fresh none) (by simp)

theorem apart {o : Option Nat} (ho : s.Has o c) {j : Nat} (hj : some j ≠ o) :
    (s.goroutines j).conn? ≠ some c := fun hc => hj (h.unique _ _ c hc ho)

variable {channel : List Nat} {conns : Nat → Conn}

theorem turn_hand (hold : (s.goroutines i).conn? = some c) (target : Option (Option Nat))
    (hother : ∀ j, j ≠ i → target ≠ some (some j)) (hconn : g.conn? = if target = some (some i) then some c else none)
    (hchannel : channel = s.channel ++ if target = some none then [c] else [])
    (hconns : ∀ d, d ≠ c → conns d = s.conns d) (hclosed : target = none → (conns c).closed = true)
    (hidle : target = some none → (conns c).outstanding = []) (hfits : Fits size conns i g) :
    Inv size ({ s with channel, conns }.goto i g) := by
  have hout := h.not_mem_channel hold
  refine h.turn (h.lt_of_hand hold) c target rfl rfl ?_ ?_ ?_ (.inl rfl) ?_ hconns
    (fun htarget _ => hclosed htarget) hidle ?_ hfits
  · exact fun j hj => ⟨h.apart (o := some i) hold (by simpa using hj), hother j hj⟩
  · grind
  · simp only [State.goto]
    grind
  · exact fun _ => h.dialled (some i) c hold
  · change channel.Nodup
    rw [hchannel]
    split
    · exact nodup_append_comm.mp (nodup_cons.mpr ⟨hout, h.nodup⟩)
    · rw [append_nil]
      exact h.nodup

theorem setConn_goto (hold : (s.goroutines i).conn? = some c) (conn : Conn)
    (hconn : g.conn? = some c) (hfits : Fits size (s.setConn c conn).conns i g) :
    Inv size ((s.setConn c conn).goto i g) :=
  h.turn_hand hold (some (some i)) (fun _ hj => by simpa using hj.symm) (by simp [hconn])
    (append_nil _).symm (fun d hd => update_of_ne hd _ _) (by simp) (by simp) hfits

theorem deposit (hold : (s.goroutines i).conn? = some c)
    (hclean : (s.conns c).outstanding = []) (hconn : g.conn? = none) (hfits : Fits size s.conns i g) :
    Inv size ({ s with channel := s.channel ++ [c] }.goto i g) :=
  h.turn_hand hold (some none) (by simp) hconn rfl (fun _ _ => rfl) (by simp) (fun _ => hclean) hfits

theorem close_goto (hold : (s.goroutines i).conn? = some c)
    (hconn : g.conn? = none) (hfits : ∀ conns, Fits size conns i g) : Inv size ((s.close c).goto i g) :=
  h.turn_hand hold none (by simp) hconn (append_nil _).symm (fun d hd => update_of_ne hd _ _)
    (fun _ => closed_close s c) (by simp) (hfits _)

theorem turn_channel (hi : i < s.started) (hchannel : s.channel = c :: channel)
    (hold : (s.goroutines i).conn? = none) {target : Option (Option Nat)}
    (hgoroutines : s'.goroutines = update s.goroutines i g) (hstarted : s'.started = s.started)
    (hdialled : s'.dialled = s.dialled) (hchannel' : s'.channel = channel)
    (htarget : target = none ∨ target = some (some i))
    (hconn : g.conn? = if target = some (some i) then some c else none)
    (hconns : ∀ d, d ≠ c → s'.conns d = s.conns d) (hclosed : target = none → (s'.conns c).closed = true)
    (hfits : Fits size s'.conns i g) : Inv size s' := by
  have hnodup := h.nodup
  have hmem : c ∈ s.channel := hchannel ▸ mem_cons_self
  rw [hchannel, nodup_cons] at hnodup
  refine h.turn hi c target hgoroutines hstarted ?_ ?_ ?_ (.inl hdialled) ?_ hconns (fun ht _ => hclosed ht) ?_ ?_ hfits
  · exact fun j hj => ⟨h.apart (o := none) hmem (by simp), by grind⟩
  · grind
  · grind
  · exact fun _ => hdialled ▸ h.dialled none c hmem
  · grind
  · exact hchannel' ▸ hnodup.2

theorem receive (hi : i < s.started) (hchannel : s.channel = c :: channel)
    (hold : (s.goroutines i).conn? = none) (hconn : g.conn? = some c) (hfits : Fits size s.conns i g) :
    Inv size ({ s with channel }.goto i g) :=
  h.turn_channel hi hchannel hold rfl rfl rfl rfl (.inr rfl) (by simp [hconn]) (fun _ _ => rfl) (by simp) hfits

theorem drain (hi : i < s.started) (hchannel : s.channel = c :: channel)
    (hold : (s.goroutines i).conn? = none) : Inv size ({ s with channel }.close c) :=
  h.turn_channel hi hchannel hold (update_eq_self i s.goroutines).symm rfl rfl rfl (.inl rfl) hold
    (fun d hd => update_of_ne hd _ _) (fun _ => closed_close _ c) ((h.fits i).congr fun d hd => by simp [hold] at hd)

theorem dial (hi : i < s.started) {next : Nat → Goroutine}
    (hold : (s.goroutines i).conn? = none) (hconn : (next s.dialled).conn? = some s.dialled)
    (hfits : ∀ conns : Nat → Conn, (conns s.dialled).outstanding = [] → Fits size conns i (next s.dialled)) :
    Inv size (s.dial i next) := by
  have hself : (s.dial i next).conns s.dialled = ⟨false, true, [], []⟩ := update_self ..
  refine h.turn hi s.dialled (some (some i)) rfl rfl (fun j hj => ⟨h.fresh (some j), by simpa using hj.symm⟩) ?_
    (pass_iff (h.fresh none) (by simp)) (.inr ⟨rfl, rfl⟩) (fun _ => Nat.lt_succ_self _) (fun d hd => update_of_ne hd _ _)
    (by simp) (by simp) h.nodup (hfits _ (by rw [hself]; rfl))
  rw [hconn, hold]
  grind

theorem spawn (hconn : g.conn? = none) (hfits : Fits size s.conns s.started g) :
    Inv size (s.spawn g) := by
  have hother {j : Nat} (hj : j ≠ s.started) : (s.spawn g).goroutines j = s.goroutines j := update_of_ne hj _ _
  have hself : (s.spawn g).goroutines s.started = g := update_self ..
  refine h.pass s.dialled none ?_ (.inl rfl) (by simp) (fun _ _ => ⟨rfl, .refl _⟩)
    (fun _ hlt => absurd hlt (Nat.lt_irrefl _)) (by simp) h.nodup (fun j => ?_) fun j hj => ?_
  · rintro (_ | j) d
    · exact pass_iff (h.fresh none) (by simp) d
    · have hsame : ((s.spawn g).goroutines j).conn? = (s.goroutines j).conn? := by
        by_cases hj : j = s.started
        · rw [hj, hself, hconn, h.unborn _ (Nat.le_refl _)]
          rfl
        · rw [hother hj]
      rw [State.Has, hsame]
      exact pass_iff (h.fresh (some j)) (by simp) d
  · by_cases hj : j = s.started
    · rw [hj, hself]
      exact .inr hfits
    · exact .inl ⟨hother hj, by simp⟩
  · rw [hother (Nat.ne_of_gt hj), h.unborn j (Nat.le_of_lt hj)]

theorem setConn (conn : Conn) (hclosed : conn.closed = (s.conns c).closed)
    (hperm : conn.outstanding.Perm (s.conns c).outstanding) : Inv size (s.setConn c conn) := by
  refine h.pass s.dialled none (fun o => pass_iff (h.fresh o) (by simp)) (.inl rfl) (by simp) (fun d _ => ?_)
    (fun _ hlt => absurd hlt (Nat.lt_irrefl _)) (by simp) h.nodup (fun j => .inl ⟨rfl, by simp⟩) h.unborn
  change (update s.conns c conn d).closed = _ ∧ (update s.conns c conn d).outstanding.Perm _
  by_cases hd : d = c
  · subst hd
    rw [update_self]
    exact ⟨hclosed, hperm⟩
  · rw [update_of_ne hd]
    exact ⟨rfl, .refl _⟩

end Inv

end Logistics.BridgePool
