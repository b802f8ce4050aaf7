import Logistics.BridgePool

namespace Logistics.BridgePool

open List Function

inductive Phase
  | opening
  | opened
  | openFailed
  | closing
  | closed
  | other
deriving DecidableEq

def Goroutine.phase : Goroutine → Phase
  | .opening _ | .openPush _ _ => .opening
  | .returned .opened => .opened
  | .drainOpen | .returned .openFailed => .openFailed
  | .drainClose => .closing
  | .returned .closed => .closed
  | _ => .other

inductive Phase.Next (channel : List Nat) : Phase → Phase → Prop
  | same (p : Phase) : Next channel p p
  | opened : Next channel .opening .opened
  | openFailed : Next channel .opening .openFailed
  | closed (h : channel = []) : Next channel .closing .closed

/-- The places of the pool that a goroutine takes up: the connection that it has borrowed
or is replacing, or the connections that `Open` has yet to dial. -/
def Goroutine.places (size : Nat) : Goroutine → Nat
  | .opening count | .openPush count _ => size - count
  | .keepaliveWrite _ _ | .keepaliveRead _ _ | .keepaliveBack _ _ | .healthyCheck _ _ | .healthyBack _ _ _
  | .sendWrite _ | .sendRead _ | .sendAck _ _ | .sendPut _ _ | .replaceClose _ | .replaceCheck | .replaceDial
  | .replacePut _ => 1
  | _ => 0

def lossAt (size : Nat) (s : State) : Event → Nat
  | .run i ok =>
    match s.goroutines i, ok with
    | .opening count, false => size - count
    | .drainOpen, _ | .drainClose, _ => if s.channel = [] then 0 else 1
    | .replaceCheck, _ => if s.done then 1 else 0
    | .replaceDial, false => 1
    | _, _ => 0
  | _ => 0

structure Keeps (size i : Nat) (channel : List Nat) (g g' : Goroutine) (gain loss : Nat) : Prop where
  response : ∀ frame, g'.response? = some frame → g.response? = some frame
  opens : g.Opens size i → g'.Opens size i
  phase : Phase.Next channel g.phase g'.phase
  places : g.Opens size i → g'.places size + loss = g.places size + gain

/-- The goroutine is about to put a connection into the channel: the loop of `Open`, the ends of a turn of
`sendKeepalives` and `Healthy`, and the two calls of `put`. -/
def Goroutine.putsBack : Goroutine → Bool
  | .openPush _ _ | .keepaliveBack _ _ | .healthyBack _ _ _ | .sendPut _ _ | .replacePut _ => true
  | _ => false

inductive Advances (size : Nat) (s : State) (i : Nat) (g : Goroutine) : Nat → State → Prop
  | stay : Advances size s i g 0 s
  | goto {g' : Goroutine} {loss : Nat} (hold : g.conn? = none) (hconn : g'.conn? = none)
      (hkeeps : Keeps size i s.channel g g' 0 loss) : Advances size s i g loss (s.goto i g')
  | keep {c : Nat} {g' : Goroutine} (hold : g.conn? = some c) (hne : g ≠ .replaceClose c) (hawaits : g.awaits i = [])
      (hconn : g'.conn? = some c) (hawaits' : g'.awaits i = []) (hkeeps : Keeps size i s.channel g g' 0 0) :
      Advances size s i g 0 (s.goto i g')
  | receive {c : Nat} {channel : List Nat} {g' : Goroutine} (hchannel : s.channel = c :: channel)
      (hold : g.conn? = none) (hconn : g'.conn? = some c) (hawaits' : g'.awaits i = [])
      (hkeeps : Keeps size i channel g g' 1 0) : Advances size s i g 0 ({ s with channel }.goto i g')
  | deposit {c : Nat} {g' : Goroutine} (hroom : s.channel.length < size) (hputs : g.putsBack = true)
      (hold : g.conn? = some c) (hne : g ≠ .replaceClose c) (hawaits : g.awaits i = []) (hconn : g'.conn? = none)
      (hkeeps : Keeps size i (s.channel ++ [c]) g g' 0 1) : Advances size s i g 0 ({ s with channel := s.channel ++ [c] }.goto i g')
  | overflow {c : Nat} {g' : Goroutine} (hfull : size ≤ s.channel.length) (hplaces : g.places size = 1)
      (hold : g.conn? = some c) (hconn : g'.conn? = none) (hkeeps : Keeps size i s.channel g g' 0 1) :
      Advances size s i g 0 ((s.close c).goto i g')
  | close {c : Nat} {g' : Goroutine} (hold : g.conn? = some c) (hconn : g'.conn? = none)
      (hkeeps : Keeps size i s.channel g g' 0 0) : Advances size s i g 0 ((s.close c).goto i g')
  | write {c : Nat} (hg : g = .sendWrite c) : Advances size s i g 0 ((s.command i c).goto i (.sendRead c))
  | read {c : Nat} {frame : Frame} {inbox : List Frame} {g' : Goroutine} (hinbox : (s.conns c).inbox = frame :: inbox)
      (hg : (∃ left, g = .keepaliveRead left c ∧ g' = .keepaliveBack left c) ∨ g = .sendRead c ∧
        ((∃ call, frame = .commandResponse call ∧ g' = .sendAck c frame) ∨ (∃ m, frame = .other m) ∧ g' = .sendRead c)) :
      Advances size s i g 0 ((s.setConn c { s.conns c with inbox }).goto i g')
  | dial {next : Nat → Goroutine} (hold : g.conn? = none) (hconn : (next s.dialled).conn? = some s.dialled)
      (hawaits' : (next s.dialled).awaits i = []) (hkeeps : Keeps size i s.channel g (next s.dialled) 0 0) :
      Advances size s i g 0 (s.dial i next)
  | fail {c : Nat} {g' : Goroutine} (hold : g.conn? = some c) (hconn : g'.conn? = none)
      (hkeeps : Keeps size i s.channel g g' 0 1) : Advances size s i g 0 (s.fail i c g')
  | writeFail {c : Nat} (hg : g = .sendWrite c) :
      Advances size s i g 0 ((s.command i c).fail i c (.returned .failed))
  | drain {c : Nat} {channel : List Nat} (hchannel : s.channel = c :: channel) (hold : g.conn? = none) :
      Advances size s i g 1 ({ s with channel }.close c)
  | opened {count : Nat} (hg : g = .opening count) (hcount : size ≤ count) :
      Advances size s i g 0 ((s.goto i (.returned .opened)).spawn .keepaliveLoop)

variable {size i c : Nat} {s : State} {g g' : Goroutine} {channel : List Nat} {gain loss : Nat}

theorem Keeps.plain (hresponse : g'.response? = none) (hopens : g.Opens size i → g'.Opens size i)
    (hphase : Phase.Next channel g.phase g'.phase)
    (hplaces : g.Opens size i → g'.places size + loss = g.places size + gain) :
    Keeps size i channel g g' gain loss where
  response frame hframe := by
    rw [hresponse] at hframe
    cases hframe
  opens := hopens
  phase := hphase
  places := hplaces

theorem advances_take (hold : g.conn? = none) {next : Nat → Goroutine} {empty : Goroutine}
    (hconn : ∀ c, (next c).conn? = some c) (hawaits : ∀ c, (next c).awaits i = [])
    (hkeeps : ∀ c channel, Keeps size i channel g (next c) 1 0) (hconn' : empty.conn? = none)
    (hkeeps' : Keeps size i s.channel g empty 0 0) : Advances size s i g 0 (s.take i next empty) := by
  rw [State.take]
  cases hchannel : s.channel with
  | nil => exact .goto hold hconn' hkeeps'
  | cons c channel => exact .receive hchannel hold (hconn c) (hawaits c) (hkeeps c channel)

theorem advances_give (hputs : g.putsBack = true) (hold : g.conn? = some c) (hne : g ≠ .replaceClose c)
    (hawaits : g.awaits i = []) (hconn : g'.conn? = none) (hkeeps : Keeps size i (s.channel ++ [c]) g g' 0 1) :
    Advances size s i g 0 (s.give size i c g') := by
  rw [State.give]
  split
  · next hroom => exact .deposit hroom hputs hold hne hawaits hconn hkeeps
  · exact .stay

theorem advances_put (hputs : g.putsBack = true) (hplaces : g.places size = 1) (hold : g.conn? = some c)
    (hne : g ≠ .replaceClose c)
    (hawaits : g.awaits i = []) (hconn : g'.conn? = none) (hkeeps : ∀ channel, Keeps size i channel g g' 0 1) :
    Advances size s i g 0 (s.put size i c g') := by
  rw [State.put]
  split
  · next hroom => exact .deposit hroom hputs hold hne hawaits hconn (hkeeps _)
  · next hfull => exact .overflow (Nat.not_lt.mp hfull) hplaces hold hconn (hkeeps _)

theorem advances_drain (hold : g.conn? = none) (hconn : g'.conn? = none)
    (hkeeps : s.channel = [] → Keeps size i s.channel g g' 0 0) :
    Advances size s i g (if s.channel = [] then 0 else 1) (s.drain i g') := by
  rw [State.drain]
  cases hchannel : s.channel with
  | nil => exact .goto hold hconn (hkeeps hchannel)
  | cons c channel => exact .drain hchannel hold

theorem advances_read {next : Frame → Goroutine}
    (hnext : ∀ frame, (∃ left, g = .keepaliveRead left c ∧ next frame = .keepaliveBack left c) ∨ g = .sendRead c ∧
      ((∃ call, frame = .commandResponse call ∧ next frame = .sendAck c frame) ∨
        (∃ m, frame = .other m) ∧ next frame = .sendRead c)) : Advances size s i g 0 (s.read i c next) := by
  rw [State.read]
  cases hinbox : (s.conns c).inbox with
  | nil => exact .stay
  | cons frame inbox => exact .read hinbox (hnext frame)

theorem advances_advance (size : Nat) (s : State) (i : Nat) (ok : Bool) :
    Advances size s i (s.goroutines i) (lossAt size s (.run i ok)) (advance size s i ok) := by
  simp only [advance, lossAt]
  generalize s.goroutines i = g
  cases g with
  | unborn | returned result => exact .stay
  | opening count =>
    cases ok with
    | true =>
      dsimp only
      split
      · next hcount => exact .dial rfl rfl rfl (.plain rfl (fun h => ⟨h.1, hcount⟩) (.same _) fun _ => rfl)
      · next hcount => exact .opened rfl (Nat.not_lt.mp hcount)
    | false =>
      dsimp only
      split
      · exact .goto rfl rfl (.plain rfl (fun h => h.1) .openFailed fun _ => Nat.zero_add _)
      · next hcount =>
        rw [Nat.sub_eq_zero_of_le (Nat.not_lt.mp hcount)]
        exact .stay
  | openPush count c =>
    refine advances_give rfl rfl (by simp) rfl rfl (.plain rfl id (.same _) fun hopens => ?_)
    have hcount : count < size := hopens.2
    change size - (count + 1) + 1 = size - count
    omega
  | drainOpen => exact advances_drain rfl rfl fun _ => .plain rfl (fun _ => trivial) (.same _) fun _ => rfl
  | drainClose => exact advances_drain rfl rfl fun hnil => .plain rfl id (.closed hnil) fun _ => rfl
  | keepaliveLoop =>
    cases ok with
    | true => exact .goto rfl rfl (.plain rfl id (.same _) fun _ => rfl)
    | false =>
      dsimp only
      split
      · exact .goto rfl rfl (.plain rfl id (.same _) fun _ => rfl)
      · exact .stay
  | keepaliveRound left | healthyRound left =>
    cases left with
    | zero => exact .goto rfl rfl (.plain rfl id (.same _) fun _ => rfl)
    | succ left =>
      exact advances_take rfl (fun _ => rfl) (fun _ => rfl) (fun _ _ => .plain rfl id (.same _) fun _ => rfl) rfl
        (.plain rfl id (.same _) fun _ => rfl)
  | keepaliveWrite left c =>
    cases ok with
    | true => exact .keep rfl (by simp) rfl rfl rfl (.plain rfl id (.same _) fun _ => rfl)
    | false => exact .fail rfl rfl (.plain rfl id (.same _) fun _ => rfl)
  | keepaliveRead left c =>
    cases ok with
    | true => exact advances_read fun frame => .inl ⟨left, rfl, rfl⟩
    | false => exact .fail rfl rfl (.plain rfl id (.same _) fun _ => rfl)
  | keepaliveBack left c => exact advances_give rfl rfl (by simp) rfl rfl (.plain rfl id (.same _) fun _ => rfl)
  | healthyCheck left c => exact .keep rfl (by simp) rfl rfl rfl (.plain rfl id (.same _) fun _ => rfl)
  | healthyBack left c answer =>
    cases answer <;> exact advances_give rfl rfl (by simp) rfl rfl (.plain rfl id (.same _) fun _ => rfl)
  | sendGet =>
    cases ok with
    | true =>
      exact advances_take rfl (fun _ => rfl) (fun _ => rfl) (fun _ _ => .plain rfl id (.same _) fun _ => rfl) rfl
        (.plain rfl id (.same _) fun _ => rfl)
    | false => exact .goto rfl rfl (.plain rfl id (.same _) fun _ => rfl)
  | sendWrite c =>
    cases ok with
    | true => exact .write rfl
    | false => exact .writeFail rfl
  | sendRead c =>
    cases ok with
    | true =>
      refine advances_read fun frame => .inr ⟨rfl, ?_⟩
      cases frame with
      | commandResponse call => exact .inl ⟨call, rfl, rfl⟩
      | other m => exact .inr ⟨⟨m, rfl⟩, rfl⟩
    | false => exact .fail rfl rfl (.plain rfl id (.same _) fun _ => rfl)
  | sendAck c frame =>
    cases ok with
    | true => exact .keep rfl (by simp) rfl rfl rfl ⟨fun _ => id, id, .same _, fun _ => rfl⟩
    | false => exact .fail rfl rfl (.plain rfl id (.same _) fun _ => rfl)
  | sendPut c frame =>
    exact advances_put rfl rfl rfl (by simp) rfl rfl fun _ => ⟨fun _ => id, id, .same _, fun _ => rfl⟩
  | replaceClose c => exact .close rfl rfl (.plain rfl id (.same _) fun _ => rfl)
  | replaceCheck =>
    cases s.done <;> exact .goto rfl rfl (.plain rfl id (.same _) fun _ => rfl)
  | replaceDial =>
    cases ok with
    | true => exact .dial rfl rfl rfl (.plain rfl id (.same _) fun _ => rfl)
    | false => exact .goto rfl rfl (.plain rfl id (.same _) fun _ => rfl)
  | replacePut c => exact advances_put rfl rfl rfl (by simp) rfl rfl fun _ => .plain rfl id (.same _) fun _ => rfl

variable {s' : State} {conns conns' : Nat → Conn}

theorem Inv.fail (h : Inv size s) (hold : (s.goroutines i).conn? = some c)
    (hconn : g.conn? = none) (hfits : Fits size s.conns i g) : Inv size (s.fail i c g) := by
  have hi := h.lt_of_hand hold
  have hconns (d : Nat) : ((s.fail i c g).conns d).closed = (s.conns d).closed ∧
      ((s.fail i c g).conns d).outstanding = (s.conns d).outstanding := by
    change (update s.conns c _ d).closed = _ ∧ (update s.conns c _ d).outstanding = _
    rw [update_apply]
    split
    next hd => rw [hd]; exact ⟨rfl, rfl⟩
    next => exact ⟨rfl, rfl⟩
  have hgoroutines (j : Nat) : (s.fail i c g).goroutines j =
      if j = s.started then .replaceClose c else if j = i then g else s.goroutines j := by
    change update (update s.goroutines i g) s.started _ j = _
    rw [update_apply, update_apply]
  refine h.pass c (some (some s.started)) ?_ (.inl rfl) (fun _ => h.dialled (some i) c hold)
    (fun d _ => ⟨(hconns d).1, .of_eq (hconns d).2⟩) (by simp) (by simp) h.nodup (fun j => ?_) fun j hj => ?_
  · rintro (_ | j) d
    · exact pass_iff (h.not_mem_channel hold) (by simp) d
    · rw [State.Has, State.Has, hgoroutines]
      split
      next hj =>
        rw [hj, h.unborn _ (Nat.le_refl _)]
        simp [Goroutine.conn?, eq_comm]
      next hj =>
        split
        next hji => rw [hconn, hji, hold]; grind
        next hji =>
          exact pass_iff (P := fun d => (s.goroutines j).conn? = some d)
            (h.apart (o := some i) hold (by simpa using hji)) (by simpa using Ne.symm hj) d
  · rw [hgoroutines]
    split
    next => exact .inr ⟨fun d hd => .inl (Option.some.inj hd ▸ rfl), fun frame hframe => (by cases hframe), trivial⟩
    next hj =>
      split
      next hji => exact .inr (hji ▸ hfits.congr fun d _ => .of_eq (hconns d).2)
      next => exact .inl ⟨rfl, by simpa using Ne.symm hj⟩
  · have hj : s.started + 1 ≤ j := hj
    rw [hgoroutines, if_neg (by omega), if_neg (by omega), h.unborn j (by omega)]

theorem Fits.free (hconn : g.conn? = none) (hresponse : g.response? = none)
    (hopens : g.Opens size i) : Fits size conns i g where
  outstanding d hd := by
    rw [hconn] at hd
    cases hd
  response frame hframe := by
    rw [hresponse] at hframe
    cases hframe
  opens := hopens

theorem Fits.hand (hconn : g.conn? = some c) (hout : (conns c).outstanding.Perm (g.awaits i))
    (hresponse : ∀ frame, g.response? = some frame → frame = .commandResponse i) (hopens : g.Opens size i) :
    Fits size conns i g where
  outstanding d hd := by
    rw [hconn] at hd
    obtain rfl := Option.some.inj hd
    exact .inr hout
  response := hresponse
  opens := hopens

theorem Keeps.free (hkeeps : Keeps size i channel g g' gain loss) (hfits : Fits size conns i g)
    (hconn : g'.conn? = none) : Fits size conns' i g' where
  outstanding d hd := by
    rw [hconn] at hd
    cases hd
  response frame hframe := hfits.response frame (hkeeps.response frame hframe)
  opens := hkeeps.opens hfits.opens

theorem Keeps.hand (hkeeps : Keeps size i channel g g' gain loss) (hfits : Fits size conns i g)
    (hconn : g'.conn? = some c) (hawaits : g'.awaits i = []) (hclean : (conns' c).outstanding = []) :
    Fits size conns' i g' := by
  refine .hand hconn ?_ (fun frame hframe => hfits.response frame (hkeeps.response frame hframe))
    (hkeeps.opens hfits.opens)
  rw [hclean, hawaits]

theorem outstanding_command (s : State) (i c : Nat) :
    ((s.command i c).conns c).outstanding = (s.conns c).outstanding ++ [i] := by
  change (update s.conns c _ c).outstanding = _
  rw [update_self, Conn.outstanding, Conn.outstanding, append_assoc]

namespace Inv

variable (h : Inv size s)
include h

theorem outstanding (hg : s.goroutines i = g) (hconn : g.conn? = some c)
    (hne : g ≠ .replaceClose c) : (s.conns c).outstanding.Perm (g.awaits i) := by
  subst hg
  exact ((h.fits i).outstanding c hconn).resolve_left hne

theorem clean (hg : s.goroutines i = g) (hconn : g.conn? = some c) (hne : g ≠ .replaceClose c)
    (hawaits : g.awaits i = []) : (s.conns c).outstanding = [] := by
  have hperm := h.outstanding hg hconn hne
  rw [hawaits] at hperm
  exact hperm.eq_nil

theorem sendWrite (hg : s.goroutines i = .sendWrite c) :
    Inv size ((s.command i c).goto i (.sendRead c)) := by
  have hclean := h.clean hg rfl (by simp) rfl
  refine h.setConn_goto (by rw [hg]; rfl) _ rfl (.hand rfl ?_ ?_ trivial)
  · refine Perm.of_eq ((outstanding_command s i c).trans ?_)
    rw [hclean]
    rfl
  · intro frame hframe
    cases hframe

theorem sendWrite_fail (hg : s.goroutines i = .sendWrite c) :
    Inv size ((s.command i c).fail i c (.returned .failed)) := by
  have heq : (s.command i c).fail i c (.returned .failed) =
      ((s.command i c).goto i (.sendRead c)).fail i c (.returned .failed) := by
    simp only [State.fail, State.goto, State.setConn, State.spawn, update_idem]
  rw [heq]
  refine (h.sendWrite hg).fail ?_ rfl (.free rfl rfl trivial)
  change (update s.goroutines i _ i).conn? = _
  rw [update_self]
  rfl

theorem read {frame : Frame} {inbox : List Frame} (hinbox : (s.conns c).inbox = frame :: inbox)
    (hg : (∃ left, s.goroutines i = .keepaliveRead left c ∧ g = .keepaliveBack left c) ∨
      s.goroutines i = .sendRead c ∧ ((∃ call, frame = .commandResponse call ∧ g = .sendAck c frame) ∨
        (∃ m, frame = .other m) ∧ g = .sendRead c)) : Inv size ((s.setConn c { s.conns c with inbox }).goto i g) := by
  have hconns : (s.setConn c { s.conns c with inbox }).conns c = { s.conns c with inbox } := update_self ..
  rcases hg with ⟨left, hg, rfl⟩ | ⟨hg, ⟨call, rfl, rfl⟩ | ⟨⟨m, rfl⟩, rfl⟩⟩
  · have hclean := h.clean hg rfl (by simp) rfl
    rw [Conn.outstanding, hinbox, append_eq_nil_iff] at hclean
    have hrest : inbox.filterMap Frame.call? = [] := by
      cases frame with
      | commandResponse call => exact absurd hclean.1 (by simp [Frame.call?])
      | other msgType => exact hclean.1
    refine h.setConn_goto (by rw [hg]; rfl) _ rfl (.hand rfl ?_ (fun frame hframe => by cases hframe) trivial)
    rw [hconns, Conn.outstanding, hrest, hclean.2]
    exact Perm.refl _
  · have hout := h.outstanding hg rfl (by simp)
    rw [Conn.outstanding, hinbox] at hout
    obtain ⟨rfl, hrest⟩ := cons.inj (perm_singleton.mp hout)
    refine h.setConn_goto (by rw [hg]; rfl) _ rfl (.hand rfl ?_ ?_ trivial)
    · rw [hconns]
      exact Perm.of_eq hrest
    · intro frame hframe
      exact (Option.some.inj hframe).symm
  · have hout := h.outstanding hg rfl (by simp)
    rw [Conn.outstanding, hinbox] at hout
    refine h.setConn_goto (by rw [hg]; rfl) _ rfl (.hand rfl ?_ (fun frame hframe => by cases hframe) trivial)
    rw [hconns]
    exact hout

theorem advances (hi : i < s.started)
    (hadvances : Advances size s i (s.goroutines i) loss s') : Inv size s' := by
  have hfits := h.fits i
  cases hadvances with
  | stay => exact h
  | goto hold hconn hkeeps => exact h.goto hi (hconn.trans hold.symm) (hkeeps.free hfits hconn)
  | keep hold hne hawaits hconn hawaits' hkeeps =>
    exact h.goto hi (hconn.trans hold.symm) (hkeeps.hand hfits hconn hawaits' (h.clean rfl hold hne hawaits))
  | receive hchannel hold hconn hawaits' hkeeps =>
    exact h.receive hi hchannel hold hconn
      (hkeeps.hand hfits hconn hawaits' (h.idle _ (hchannel ▸ mem_cons_self)))
  | deposit hroom hputs hold hne hawaits hconn hkeeps =>
    exact h.deposit hold (h.clean rfl hold hne hawaits) hconn (hkeeps.free hfits hconn)
  | overflow hfull hplaces hold hconn hkeeps | close hold hconn hkeeps =>
    exact h.close_goto hold hconn fun _ => hkeeps.free hfits hconn
  | write hg => exact h.sendWrite hg
  | read hinbox hg => exact h.read hinbox hg
  | dial hold hconn hawaits' hkeeps => exact h.dial hi hold hconn fun conns => hkeeps.hand hfits hconn hawaits'
  | fail hold hconn hkeeps => exact h.fail hold hconn (hkeeps.free hfits hconn)
  | writeFail hg => exact h.sendWrite_fail hg
  | drain hchannel hold => exact h.drain hi hchannel hold
  | opened hg hcount =>
    have hopened : Inv size (s.goto i (.returned .opened)) := h.goto hi (by rw [hg]; rfl) (.free rfl rfl trivial)
    exact hopened.spawn rfl (.free rfl rfl trivial)

theorem advance (i : Nat) (ok : Bool) : Inv size (advance size s i ok) := by
  by_cases hi : i < s.started
  · exact h.advances hi (advances_advance size s i ok)
  · simp only [BridgePool.advance, h.unborn i (Nat.le_of_not_lt hi)]
    exact h

theorem start (op : Op) : Inv size (start s op) := by
  cases op with
  | send | healthy => exact h.spawn rfl (.free rfl rfl trivial)
  | close =>
    rw [BridgePool.start]
    split
    next => exact h
    next =>
      have hdone : Inv size { s with done := true } :=
        ⟨h.fits, h.unborn, h.idle, h.nodup, h.unique, h.dialled, h.custody⟩
      exact hdone.spawn rfl (.free rfl rfl trivial)

theorem answer (c call : Nat) : Inv size (answer s c call) := by
  rw [BridgePool.answer]
  split
  next hmem =>
    refine h.setConn _ rfl ?_
    rw [Conn.outstanding, filterMap_append, append_assoc]
    exact (perm_cons_erase hmem).symm.append_left _
  next => exact h

theorem step (event : Event) : Inv size (step size s event) := by
  cases event with
  | start op => exact h.start op
  | run i ok => exact h.advance i ok
  | answer c call => exact h.answer c call
  | push c msgType =>
    refine h.setConn _ rfl ?_
    rw [Conn.outstanding, Conn.outstanding]
    exact Perm.of_eq (by simp [Frame.call?])

theorem foldl (events : List Event) : Inv size (events.foldl (BridgePool.step size) s) := by
  induction events generalizing s with
  | nil => exact h
  | cons event events ih => exact ih (h.step event)

end Inv

theorem inv_run (size : Nat) (events : List Event) : Inv size (run size events) := inv_init.foldl events

end Logistics.BridgePool
