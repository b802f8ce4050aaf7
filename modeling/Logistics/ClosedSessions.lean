import Logistics.Reachability
import Logistics.TcpSession

namespace Logistics.TcpSession

open Sockets List

variable {s s' : Session} {calls : List Call}

def UnusedAfterClose (calls : List Call) : Prop := ∀ before after, calls = before ++ .close :: after → after = []

theorem unusedAfterClose_append_iff (call : Call) : UnusedAfterClose (calls ++ [call]) ↔ .close ∉ calls := by
  constructor
  · intro h hmem
    obtain ⟨before, after, rfl⟩ := mem_iff_append.mp hmem
    have := h before (after ++ [call]) (by rw [append_assoc, cons_append])
    exact absurd (append_eq_nil_iff.mp this).2 (cons_ne_nil _ _)
  · intro h before after he
    rcases eq_nil_or_concat after with rfl | ⟨after, last, rfl⟩
    · rfl
    · rw [concat_eq_append, ← cons_append, ← append_assoc] at he
      rw [(append_inj' he rfl).1] at h
      exact absurd (mem_append_right _ (mem_cons_self ..)) h

theorem unusedAfterClose_of_not_mem (h : .close ∉ calls) : UnusedAfterClose calls := by
  rintro before after rfl
  exact absurd (mem_append_right _ (mem_cons_self ..)) h

structure Opened (s : Session) : Prop where
  closed_eq : s.closed = false
  not_mem : .close ∉ s.calls

structure StaysOpen (s : Session) : Prop extends Opened s where
  phase_ne : s.phase ≠ .ended

theorem not_mem_append {call : Call} (h : .close ∉ calls) (hne : call ≠ .close) : .close ∉ calls ++ [call] := by
  rw [mem_append, mem_singleton]
  rintro (hmem | heq)
  · exact h hmem
  · exact hne heq.symm

theorem Opened.modifyFd (h : Opened s) (epollout : Bool) : StaysOpen (modifyFd s epollout) := by
  refine ⟨⟨h.closed_eq, not_mem_append h.not_mem nofun⟩, ?_⟩
  simp only [TcpSession.modifyFd, h.closed_eq]
  exact nofun

theorem Opened.callSend (h : Opened s) (rest : List UInt8) : StaysOpen (callSend s rest) :=
  ⟨⟨h.closed_eq, not_mem_append h.not_mem nofun⟩, nofun⟩

theorem Opened.doWriteNext (h : Opened s) : StaysOpen (doWriteNext s) := by
  rw [TcpSession.doWriteNext]
  split
  · apply Opened.modifyFd
    exact ⟨h.closed_eq, h.not_mem⟩
  · apply Opened.callSend
    exact ⟨h.closed_eq, h.not_mem⟩

theorem Opened.afterRead (h : Opened s) (epollout : Bool) : StaysOpen (afterRead s epollout) := by
  have hidle : StaysOpen { s with phase := .idle } := ⟨⟨h.closed_eq, h.not_mem⟩, nofun⟩
  rw [TcpSession.afterRead, onWritable]
  split
  · split
    · exact h.doWriteNext
    · exact hidle
  · exact hidle

theorem Opened.readNext (h : Opened s) (epollout : Bool) : StaysOpen (readNext s epollout) := by
  rw [TcpSession.readNext]
  split <;> exact ⟨⟨h.closed_eq, not_mem_append h.not_mem nofun⟩, nofun⟩

theorem Opened.send (h : Opened s) (data : List UInt8) (hs : s.phase = .idle) : StaysOpen (send s data) := by
  rw [TcpSession.send]
  split
  · exact ⟨⟨h.closed_eq, h.not_mem⟩, hs ▸ nofun⟩
  · have hwriting := Opened.modifyFd (s := { s with
      writeQueue := s.writeQueue ++ [data], requested := s.requested ++ [data], writing := true })
      ⟨h.closed_eq, h.not_mem⟩ true
    rw [if_neg hwriting.phase_ne]
    exact hwriting.doWriteNext

structure Shut (s : Session) : Prop where
  closed_eq : s.closed = true
  listed_eq : s.listed = false
  mem : .close ∈ s.calls

theorem calls_doWriteNext : ∃ call, (doWriteNext s).calls = s.calls ++ [call] := by
  rw [doWriteNext]
  split
  · exact ⟨.modifyFd false, rfl⟩
  · exact ⟨.send, rfl⟩

inductive Sound (s : Session) : Prop
  | isOpen (h : Opened s)
  | isShut (h : Shut s) (hs : ∀ epollout, s.phase ≠ .reading epollout)

theorem Opened.disconnect (h : Opened s) : Shut (disconnect s) := by
  rw [disconnect_eq, h.closed_eq]
  exact ⟨rfl, rfl, mem_append_right _ (mem_singleton.mpr rfl)⟩

theorem Shut.doWriteNext (h : Shut s) : Sound (doWriteNext s) := by
  rw [TcpSession.doWriteNext]
  split
  · refine .isShut ⟨h.closed_eq, h.listed_eq, mem_append_left _ h.mem⟩ fun _ => ?_
    simp only [modifyFd, h.closed_eq]
    exact nofun
  · exact .isShut ⟨h.closed_eq, h.listed_eq, mem_append_left _ h.mem⟩ nofun

theorem Shut.afterRead (h : Shut s) (epollout : Bool) : Sound (afterRead s epollout) := by
  have hidle : Sound { s with phase := .idle } := .isShut ⟨h.closed_eq, h.listed_eq, h.mem⟩ nofun
  rw [TcpSession.afterRead, onWritable]
  split
  · split
    · exact h.doWriteNext
    · exact hidle
  · exact hidle

theorem Shut.sendReturns (h : Shut s) (rest : List UInt8) (result : SendResult) :
    sendReturns s rest result = { s with writing := false, phase := .idle } := by
  rw [TcpSession.sendReturns, answer, if_pos h.closed_eq]

theorem Opened.sendReturns (h : Opened s) (rest : List UInt8) (result : SendResult) :
    StaysOpen (sendReturns s rest result) := by
  rw [TcpSession.sendReturns]
  split
  · split
    · apply Opened.doWriteNext
      exact ⟨h.closed_eq, h.not_mem⟩
    · apply Opened.callSend
      exact ⟨h.closed_eq, h.not_mem⟩
  · exact ⟨⟨h.closed_eq, h.not_mem⟩, nofun⟩
  · exact ⟨⟨h.closed_eq, h.not_mem⟩, nofun⟩

theorem Sound.opened_of_listed (h : Sound s) (hl : s.listed = true) : Opened s := by
  rcases h with h | ⟨h, -⟩
  · exact h
  · exact absurd (h.listed_eq.symm.trans hl) Bool.false_ne_true

theorem Sound.opened_of_reading {epollout : Bool} (h : Sound s) (hs : s.phase = .reading epollout) : Opened s := by
  rcases h with h | ⟨-, hne⟩
  · exact h
  · exact absurd hs (hne epollout)

theorem Sound.opened_of_open (h : Sound s) (hc : s.closed = false) : Opened s := by
  rcases h with h | ⟨h, -⟩
  · exact h
  · exact absurd (hc.symm.trans h.closed_eq) Bool.false_ne_true

theorem sound_disconnect (h : Opened s) (hs : s.phase = .idle) : Sound (disconnect s) := by
  refine .isShut h.disconnect fun epollout => ?_
  rw [disconnect_eq]
  exact hs ▸ nofun

theorem Opened.store (h : Opened s) (bytes : List UInt8) : Opened (store s bytes) := ⟨h.closed_eq, h.not_mem⟩

theorem sound_step (input : Input) (h : Sound s) : Sound (step s input) := by
  have hsteps := steps_step s input
  generalize step s input = s' at hsteps ⊢
  cases hsteps with
  | event mask hs hc =>
    have hopen := h.opened_of_open hc
    rw [callback]
    split
    · exact sound_disconnect hopen hs
    · split
      · exact .isOpen (hopen.readNext _).toOpened
      · exact .isOpen (hopen.afterRead _).toOpened
  | send data hs hl => exact .isOpen ((h.opened_of_listed hl).send data hs).toOpened
  | timeout hs hl => exact sound_disconnect (h.opened_of_listed hl) hs
  | recvReturns epollout result hs =>
    have hopen := h.opened_of_reading hs
    cases result with
    | data first more => exact .isOpen ((hopen.store _).readNext epollout).toOpened
    | wouldBlock => exact .isOpen (hopen.afterRead epollout).toOpened
    | closedByPeer | failed => exact hopen.disconnect.afterRead epollout
  | sendReturns rest result hs =>
    rcases h with h | ⟨h, -⟩
    · exact .isOpen (h.sendReturns rest result).toOpened
    · rw [h.sendReturns]
      exact .isShut ⟨h.closed_eq, h.listed_eq, h.mem⟩ nofun
  | skip => exact h

/-- Nothing was called on a closed descriptor, and no exception left a callback. -/
structure Harmless (s : Session) : Prop where
  unused : UnusedAfterClose s.calls
  phase_ne : s.phase ≠ .ended

theorem StaysOpen.harmless (h : StaysOpen s) : Harmless s := ⟨unusedAfterClose_of_not_mem h.not_mem, h.phase_ne⟩

theorem harmless_disconnect (h : Opened s) (hs : s.phase ≠ .ended) : Harmless (disconnect s) := by
  rw [disconnect_eq, h.closed_eq]
  exact ⟨(unusedAfterClose_append_iff _).mpr h.not_mem, hs⟩

theorem harmless_afterRead_disconnect (h : Opened s) (epollout : Bool) :
    Harmless (afterRead (disconnect s) epollout) ↔ ¬ (epollout = true ∧ s.writing = true) := by
  have hidle : Harmless { disconnect s with phase := .idle } := by
    refine ⟨?_, nofun⟩
    rw [disconnect_eq, h.closed_eq]
    exact (unusedAfterClose_append_iff _).mpr h.not_mem
  have hwriting : (disconnect s).writing = s.writing := by rw [disconnect_eq]
  rw [← hwriting, afterRead, onWritable]
  by_cases hout : epollout = true
  · by_cases hw : (disconnect s).writing = true
    · rw [if_pos hout, if_pos hw]
      refine iff_of_false (fun hharmless => ?_) (not_not.mpr ⟨hout, hw⟩)
      obtain ⟨call, hcalls⟩ := calls_doWriteNext (s := disconnect s)
      have hunused := hharmless.unused
      rw [hcalls, unusedAfterClose_append_iff] at hunused
      exact hunused h.disconnect.mem
    · rw [if_pos hout, if_neg hw]
      exact iff_of_true hidle fun hc => hw hc.2
  · rw [if_neg hout]
    exact iff_of_true hidle fun hc => hout hc.1

/-- A read event that is also a write event, of a session that is writing, does not
end the connection. -/
def Spares (s : Session) (input : Input) : Prop :=
  s.phase = .reading true → s.writing = true →
    input ≠ .recvReturns .closedByPeer ∧ input ≠ .recvReturns .failed

theorem Opened.event (h : Opened s) (mask : Mask) (hs : s.phase = .idle) : Harmless (callback s mask) := by
  rw [callback]
  split
  · exact harmless_disconnect h (hs ▸ nofun)
  · split
    · exact (h.readNext _).harmless
    · exact (h.afterRead _).harmless

theorem harmless_recvReturns {epollout : Bool} (result : RecvResult) (h : Opened s) (hs : s.phase = .reading epollout) :
    Harmless (recvReturns s epollout result) ↔ Spares s (.recvReturns result) := by
  have hended (result : RecvResult) (he : result = .closedByPeer ∨ result = .failed) :
      ¬ (epollout = true ∧ s.writing = true) ↔ Spares s (.recvReturns result) := by
    constructor
    · rintro hnot hreading hw
      rw [hs] at hreading
      exact absurd ⟨Phase.reading.inj hreading, hw⟩ hnot
    · rintro hspares ⟨rfl, hw⟩
      rcases he with rfl | rfl
      · exact (hspares hs hw).1 rfl
      · exact (hspares hs hw).2 rfl
  cases result with
  | data first more => exact iff_of_true ((h.store _).readNext epollout).harmless fun _ _ => ⟨nofun, nofun⟩
  | wouldBlock => exact iff_of_true (h.afterRead epollout).harmless fun _ _ => ⟨nofun, nofun⟩
  | closedByPeer => exact (harmless_afterRead_disconnect h epollout).trans (hended _ (.inl rfl))
  | failed => exact (harmless_afterRead_disconnect h epollout).trans (hended _ (.inr rfl))

theorem harmless_step_iff (input : Input) (h : Sound s) (hharmless : Harmless s) :
    Harmless (step s input) ↔ Spares s input := by
  have hsteps := steps_step s input
  generalize step s input = s' at hsteps ⊢
  cases hsteps with
  | event mask hs hc => exact iff_of_true ((h.opened_of_open hc).event mask hs) fun _ _ => ⟨nofun, nofun⟩
  | send data hs hl => exact iff_of_true ((h.opened_of_listed hl).send data hs).harmless fun _ _ => ⟨nofun, nofun⟩
  | timeout hs hl =>
    exact iff_of_true (harmless_disconnect (h.opened_of_listed hl) hharmless.phase_ne) fun _ _ => ⟨nofun, nofun⟩
  | recvReturns epollout result hs => exact harmless_recvReturns result (h.opened_of_reading hs) hs
  | sendReturns rest result hs =>
    refine iff_of_true ?_ fun _ _ => ⟨nofun, nofun⟩
    rcases h with h | ⟨h, -⟩
    · exact (h.sendReturns rest result).harmless
    · rw [h.sendReturns]
      exact ⟨hharmless.unused, nofun⟩
  | skip _ hrecv _ => exact iff_of_true hharmless fun hs _ => ⟨hrecv true _ hs, hrecv true _ hs⟩

/-- A closed descriptor is not used exactly when no read that ends the connection comes with
a write event of a writing session. -/
theorem no_use_after_close_iff (inputs : List Input) :
    (∀ before, before <+: inputs → UnusedAfterClose (run before).calls ∧ (run before).phase ≠ .ended) ↔
      ∀ before input, before ++ [input] <+: inputs → Spares (run before) input := by
  have hstart : Opened start := ⟨rfl, not_mem_nil⟩
  have hiff := Reachability.prefix_iff (I := Sound) (.isOpen hstart) (fun _ input h => sound_step input h)
    (StaysOpen.harmless ⟨hstart, nofun⟩) (fun _ input hi hp => harmless_step_iff input hi hp) inputs
  refine Iff.trans ⟨fun h before hb => ?_, fun h before hb => ?_⟩ hiff
  · exact ⟨(h before hb).1, (h before hb).2⟩
  · exact ⟨(h before hb).unused, (h before hb).phase_ne⟩

def shutDownWhileWriting : List Input :=
  [.send [97], .sendReturns .wouldBlock, .event ⟨true, true, false, false⟩, .recvReturns .closedByPeer]

theorem writer_used_after_close :
    (run shutDownWhileWriting).calls = [.modifyFd true, .send, .recv, .close, .modifyFd false] ∧
      (run shutDownWhileWriting).phase = .ended := by
  decide +kernel

end Logistics.TcpSession
