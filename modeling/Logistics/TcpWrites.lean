import Logistics.Reachability
import Logistics.TcpSession

namespace Logistics.TcpSession

open Server Sockets List

variable {s s' : Session}

theorem length_frameOf (data : List UInt8) : (frameOf data).length = bufferSize := by
  have hlen : (if bufferSize ≤ data.length then data.take (bufferSize - 1) else data).length ≤ bufferSize := by
    split
    · exact (length_take_le _ _).trans (Nat.sub_le _ _)
    · omega
  rw [frameOf, length_append, length_replicate, Nat.add_sub_cancel' hlen]

def stream (messages : List (List UInt8)) : List UInt8 := messages.flatMap frameOf

def Phase.inFlight : Phase → List UInt8
  | .sending rest => rest
  | _ => []

def unsent (s : Session) : List UInt8 := s.phase.inFlight ++ stream s.writeQueue

def Intact (s : Session) : Prop := s.accepted ++ unsent s = stream s.requested

def Unfinished (s : Session) : Prop := s.phase ≠ .sending []

structure Keeps (s s' : Session) : Prop where
  unfinished : Unfinished s'
  accepted_eq : s'.accepted = s.accepted
  requested_eq : s'.requested = s.requested
  unsent_eq : unsent s' = stream s.writeQueue

theorem keeps_modifyFd (epollout : Bool) : Keeps s (modifyFd s epollout) := by
  have hphase : (modifyFd s epollout).phase = .ended ∨ (modifyFd s epollout).phase = .idle := by
    cases hc : s.closed <;> simp [modifyFd, hc]
  refine ⟨?_, rfl, rfl, ?_⟩
  · rcases hphase with h | h <;> rw [Unfinished, h] <;> exact nofun
  · rcases hphase with h | h <;> rw [unsent, h] <;> rfl

theorem keeps_doWriteNext : Keeps s (doWriteNext s) := by
  rw [doWriteNext]
  split
  · obtain ⟨hp, ha, hr, hu⟩ := keeps_modifyFd (s := { s with writing := false }) false
    exact ⟨hp, ha, hr, hu⟩
  · next data queue hq =>
    refine ⟨?_, rfl, rfl, by rw [hq]; rfl⟩
    intro h
    exact absurd (length_frameOf data) (by rw [Phase.sending.inj h]; decide)

theorem keeps_onWritable : Keeps s (onWritable s) := by
  rw [onWritable]
  split
  · exact keeps_doWriteNext
  · exact ⟨nofun, rfl, rfl, rfl⟩

theorem keeps_afterRead (epollout : Bool) : Keeps s (afterRead s epollout) := by
  rw [afterRead]
  split
  · exact keeps_onWritable
  · exact ⟨nofun, rfl, rfl, rfl⟩

theorem keeps_readNext (epollout : Bool) : Keeps s (readNext s epollout) := by
  rw [readNext]
  split <;> exact ⟨nofun, rfl, rfl, rfl⟩

theorem Keeps.of_disconnect (h : Keeps (disconnect s) s') : Keeps s s' := by
  rw [disconnect_eq] at h
  exact ⟨h.unfinished, h.accepted_eq, h.requested_eq, h.unsent_eq⟩

theorem keeps_disconnect (h : s.phase = .idle) : Keeps s (disconnect s) := by
  rw [disconnect_eq]
  refine ⟨?_, rfl, rfl, ?_⟩
  · rw [Unfinished]
    exact h ▸ nofun
  · rw [unsent, h]
    rfl

theorem keeps_callback (mask : Mask) (h : s.phase = .idle) : Keeps s (callback s mask) := by
  rw [callback]
  split
  · exact keeps_disconnect h
  · split
    · exact keeps_readNext _
    · exact keeps_afterRead _

theorem keeps_recvReturns (epollout : Bool) (result : RecvResult) : Keeps s (recvReturns s epollout result) := by
  cases result with
  | data first more =>
    obtain ⟨hp, ha, hr, hu⟩ := keeps_readNext (s := store s _) epollout
    exact ⟨hp, ha, hr, hu⟩
  | wouldBlock => exact keeps_afterRead epollout
  | closedByPeer | failed => exact (keeps_afterRead epollout).of_disconnect

theorem intact_of_inFlight (h : s.phase.inFlight = []) :
    Intact s ↔ s.accepted ++ stream s.writeQueue = stream s.requested := by
  rw [Intact, unsent, h, nil_append]

theorem Keeps.intact (h : Keeps s s') (hs : s.phase.inFlight = []) (hi : Intact s) : Intact s' := by
  rw [intact_of_inFlight hs] at hi
  rwa [Intact, h.accepted_eq, h.requested_eq, h.unsent_eq]

theorem intact_queued (data : List UInt8) (hs : s.phase.inFlight = []) (hi : Intact s) :
    Intact { s with writeQueue := s.writeQueue ++ [data], requested := s.requested ++ [data] } := by
  rw [intact_of_inFlight hs] at hi
  rw [Intact, unsent]
  rw [hs, nil_append]
  simp only [stream, flatMap_append] at hi ⊢
  rw [← append_assoc, hi]

theorem intact_send (data : List UInt8) (hs : s.phase = .idle) (hi : Intact s) : Intact (send s data) := by
  have hflight : s.phase.inFlight = [] := by rw [hs]; rfl
  have hqueued := intact_queued data hflight hi
  rw [send]
  dsimp only
  split
  · exact hqueued
  · have hwriting := (keeps_modifyFd (s := { s with
      writeQueue := s.writeQueue ++ [data], requested := s.requested ++ [data], writing := true }) true).intact
      hflight hqueued
    split
    · exact hwriting
    · refine keeps_doWriteNext.intact ?_ hwriting
      simp only [modifyFd]
      split <;> rfl

def Accepts (s : Session) (input : Input) : Prop :=
  ∀ rest result, s.phase = .sending rest → input = .sendReturns result → ∃ count, answer s result = .accepted count

variable {rest : List UInt8}

theorem not_intact_dropped (hs : s.phase = .sending rest) (hrest : rest ≠ []) (hi : Intact s) :
    s.accepted ++ stream s.writeQueue ≠ stream s.requested := by
  rw [Intact, unsent, hs] at hi
  intro h
  rw [← hi, append_cancel_left_eq] at h
  exact hrest (self_eq_append_left.mp h)

theorem intact_sendReturns (result : SendResult) (hs : s.phase = .sending rest) (hrest : rest ≠ [])
    (hi : Intact s) : Intact (sendReturns s rest result) ↔ ∃ count, answer s result = .accepted count := by
  have hgap := not_intact_dropped hs hrest hi
  cases hanswer : answer s result with
  | accepted count =>
    refine iff_of_true ?_ ⟨count, rfl⟩
    have hsplit : s.accepted ++ rest.take count ++ (rest.drop count ++ stream s.writeQueue) =
        stream s.requested := by
      rw [Intact, unsent, hs] at hi
      rw [append_assoc, ← append_assoc (rest.take count), take_append_drop]
      exact hi
    simp only [sendReturns, hanswer]
    split
    · next hdone =>
      obtain ⟨-, ha, hr, hu⟩ := keeps_doWriteNext (s := { s with accepted := s.accepted ++ rest.take count })
      rw [hdone] at hsplit
      rwa [Intact, ha, hr, hu]
    · exact hsplit
  | wouldBlock | failed =>
    simp only [sendReturns, hanswer]
    exact iff_of_false hgap nofun

theorem unfinished_sendReturns (rest : List UInt8) (result : SendResult) : Unfinished (sendReturns s rest result) := by
  rw [sendReturns]
  split
  · split
    · exact keeps_doWriteNext.unfinished
    · next hrest => exact fun h => hrest (Phase.sending.inj h)
  · exact nofun
  · exact nofun

theorem unfinished_send (data : List UInt8) (h : Unfinished s) : Unfinished (send s data) := by
  rw [send]
  dsimp only
  split
  · exact h
  · split
    · exact (keeps_modifyFd true).unfinished
    · exact keeps_doWriteNext.unfinished

theorem unfinished_step (input : Input) (h : Unfinished s) : Unfinished (step s input) := by
  have hsteps := steps_step s input
  generalize step s input = s' at hsteps ⊢
  cases hsteps with
  | event mask hs _ => exact (keeps_callback mask hs).unfinished
  | send data _ _ => exact unfinished_send data h
  | timeout hs _ => exact (keeps_disconnect hs).unfinished
  | recvReturns epollout result _ => exact (keeps_recvReturns epollout result).unfinished
  | sendReturns rest result _ => exact unfinished_sendReturns rest result
  | skip => exact h

theorem intact_step_iff (input : Input) (hu : Unfinished s) (hi : Intact s) :
    Intact (step s input) ↔ Accepts s input := by
  have hidle (h : s.phase = .idle) : s.phase.inFlight = [] := by rw [h]; rfl
  have hsteps := steps_step s input
  generalize step s input = s' at hsteps ⊢
  cases hsteps with
  | event mask hs _ => exact iff_of_true ((keeps_callback mask hs).intact (hidle hs) hi) nofun
  | send data hs _ => exact iff_of_true (intact_send data hs hi) nofun
  | timeout hs _ => exact iff_of_true ((keeps_disconnect hs).intact (hidle hs) hi) nofun
  | recvReturns epollout result hs =>
    exact iff_of_true ((keeps_recvReturns epollout result).intact (by rw [hs]; rfl) hi) nofun
  | sendReturns rest result hs =>
    have hrest : rest ≠ [] := fun h => hu (h ▸ hs)
    rw [intact_sendReturns result hs hrest hi]
    constructor
    · rintro hcount _ result' _ ⟨⟩
      exact hcount
    · exact fun h => h rest result hs rfl
  | skip _ _ hsend => exact iff_of_true hi fun rest result hs hinput => absurd hinput (hsend rest result hs)

theorem Intact.accepted_initial (h : Intact s) : s.accepted <+: stream s.requested := ⟨unsent s, h⟩

/-- What a session writes is the stream of its frames exactly when the socket never blocks
in the middle of one. -/
theorem write_stream_intact_iff (inputs : List Input) : (∀ before, before <+: inputs →
      (run before).accepted <+: stream (run before).requested ∧ Intact (run before)) ↔
      ∀ before input, before ++ [input] <+: inputs → Accepts (run before) input := by
  have hiff := Reachability.prefix_iff (I := Unfinished) (show start.phase ≠ .sending [] from nofun)
    (fun _ input h => unfinished_step input h) (show Intact start from rfl)
    (fun _ input hu hi => intact_step_iff input hu hi) inputs
  refine Iff.trans ⟨fun h before hb => (h before hb).2, fun h before hb => ?_⟩ hiff
  exact ⟨(h before hb).accepted_initial, h before hb⟩

def blockedFrame : List Input :=
  [.send [97], .sendReturns (.accepted 100), .sendReturns .wouldBlock, .send [98],
    .event ⟨false, true, false, false⟩, .sendReturns (.accepted 1024)]

theorem blocked_frame_is_cut_short : (run blockedFrame).accepted = (frameOf [97]).take 100 ++ frameOf [98] ∧
      ¬ (run blockedFrame).accepted <+: stream (run blockedFrame).requested := by
  decide +kernel

end Logistics.TcpSession
