import Logistics.Framing
import Logistics.Reachability
import Logistics.TcpSession

namespace Logistics.TcpSession

open Framing Server Sockets List

variable {s s' : Session}

def readSide (s : Session) : List UInt8 × Nat × List UInt8 × List (List UInt8) :=
  (s.readBuf, s.readOffset, s.received, s.offered)

theorem readSide_doWriteNext : readSide (doWriteNext s) = readSide s := by
  rw [doWriteNext]
  split <;> rfl

theorem readSide_send (data : List UInt8) : readSide (send s data) = readSide s := by
  rw [send]
  dsimp only
  split
  · rfl
  · split
    · rfl
    · rw [readSide_doWriteNext]
      rfl

theorem readSide_disconnect : readSide (disconnect s) = readSide s := by
  rw [disconnect_eq]
  rfl

theorem readSide_afterRead (epollout : Bool) : readSide (afterRead s epollout) = readSide s := by
  rw [afterRead, onWritable]
  split
  · split
    · exact readSide_doWriteNext
    · rfl
  · rfl

theorem readSide_sendReturns (rest : List UInt8) (result : SendResult) :
    readSide (sendReturns s rest result) = readSide s := by
  rw [sendReturns]
  split
  · split
    · rw [readSide_doWriteNext]
      rfl
    · rfl
  · rfl
  · rfl

structure Assembles (s : Session) : Prop where
  length_eq : s.readBuf.length = bufferSize
  offset_lt : s.readOffset < bufferSize
  tracks : ∃ out, s.offered = out.map terminate ∧ Tracks bufferSize s.received out (s.readBuf.take s.readOffset)

theorem Assembles.congr (h : Assembles s) (he : readSide s' = readSide s) : Assembles s' := by
  simp only [readSide, Prod.mk.injEq] at he
  obtain ⟨hbuf, hoffset, hreceived, hoffered⟩ := he
  obtain ⟨hlen, hlt, htracks⟩ := h
  constructor
  · rw [hbuf, hlen]
  · rwa [hoffset]
  · rwa [hoffered, hreceived, hbuf, hoffset]

theorem assembles_readNext (epollout : Bool) (h : Assembles s) : Assembles (readNext s epollout) := by
  have hroom : ¬ bufferSize - s.readOffset ≤ 0 := by have := h.offset_lt; omega
  refine h.congr ?_
  rw [readNext, if_neg hroom]
  rfl

theorem take_store (bytes : List UInt8) (h : Assembles s) :
    (store s bytes).readBuf.take (store s bytes).readOffset = s.readBuf.take s.readOffset ++ bytes := by
  have hlen : (s.readBuf.take s.readOffset ++ bytes).length = s.readOffset + bytes.length := by
    rw [length_append, length_take, h.length_eq, Nat.min_eq_left h.offset_lt.le]
  exact take_left' hlen

variable {bytes : List UInt8}

theorem length_store (h : Assembles s) (hbytes : s.readOffset + bytes.length ≤ bufferSize) :
    (store s bytes).readBuf.length = bufferSize := by
  simp only [store, length_append, length_take, length_drop, h.length_eq]
  omega

theorem assembles_store (epollout : Bool) (h : Assembles s)
    (hbytes : s.readOffset + bytes.length ≤ bufferSize) : Assembles (readNext (store s bytes) epollout) := by
  obtain ⟨out, hoffered, htracks⟩ := h.tracks
  have htake := take_store bytes h
  have hlen := length_store h hbytes
  have hpending : (s.readBuf.take s.readOffset ++ bytes).length = s.readOffset + bytes.length := by
    rw [← htake, length_take, hlen]
    exact Nat.min_eq_left hbytes
  rcases Nat.lt_or_eq_of_le hbytes with hlt | hfull
  · refine assembles_readNext epollout ⟨hlen, hlt, out, hoffered, ?_⟩
    rw [htake]
    exact htracks.more (hpending ▸ hlt)
  · have hroom : bufferSize - (store s bytes).readOffset ≤ 0 := (Nat.sub_eq_zero_of_le hfull.ge).le
    have hbuf : (store s bytes).readBuf = s.readBuf.take s.readOffset ++ bytes := by
      rw [← htake]
      exact (take_of_length_le (hlen.trans hfull.symm).le).symm
    rw [readNext, if_pos hroom]
    refine ⟨length_replicate, Nat.zero_lt_of_lt h.offset_lt, out ++ [(store s bytes).readBuf], ?_, ?_⟩
    · rw [map_append, ← hoffered]
      rfl
    · rw [hbuf]
      exact htracks.full (Nat.zero_lt_of_lt h.offset_lt) (hpending.trans hfull)

theorem assembles_recvReturns (epollout : Bool) (result : RecvResult) (h : Assembles s) :
    Assembles (recvReturns s epollout result) := by
  cases result with
  | data first more =>
    refine assembles_store epollout h ?_
    have hlen := length_take_le (bufferSize - s.readOffset) (first :: more)
    have := h.offset_lt
    omega
  | wouldBlock => exact h.congr (readSide_afterRead epollout)
  | closedByPeer | failed => exact h.congr ((readSide_afterRead epollout).trans readSide_disconnect)

theorem assembles_step (input : Input) (h : Assembles s) : Assembles (step s input) := by
  have hsteps := steps_step s input
  generalize step s input = s' at hsteps ⊢
  cases hsteps with
  | event mask hs hc =>
    rw [callback]
    split
    · exact h.congr readSide_disconnect
    · split
      · exact assembles_readNext _ h
      · exact h.congr (readSide_afterRead _)
  | send data hs hl => exact h.congr (readSide_send data)
  | timeout hs hl => exact h.congr readSide_disconnect
  | recvReturns epollout result hs => exact assembles_recvReturns epollout result h
  | sendReturns rest result hs => exact h.congr (readSide_sendReturns rest result)
  | skip => exact h

theorem assembles_run (inputs : List Input) : Assembles (run inputs) := by
  induction inputs using List.reverseRecOn with
  | nil => exact ⟨length_replicate, by decide, [], rfl, tracks_nil⟩
  | append_singleton inputs input ih =>
    rw [run, foldl_append]
    exact assembles_step input ih

def recvBytes (s : Session) : Input → List UInt8
  | .recvReturns (.data first more) =>
    if s.phase matches .reading _ then (first :: more).take (bufferSize - s.readOffset) else []
  | _ => []

def delivered (s : Session) : List Input → List UInt8
  | [] => []
  | input :: inputs => recvBytes s input ++ delivered (step s input) inputs

theorem received_readNext (epollout : Bool) : (readNext s epollout).received = s.received := by
  rw [readNext]
  split <;> rfl

theorem received_congr (he : readSide s' = readSide s) : s'.received = s.received :=
  congrArg (fun side => side.2.2.1) he

theorem received_step (input : Input) : (step s input).received = s.received ++ recvBytes s input := by
  have hsteps := steps_step s input
  generalize step s input = s' at hsteps ⊢
  cases hsteps with
  | event mask hs hc =>
    refine Eq.trans ?_ (append_nil _).symm
    rw [callback]
    split
    · exact received_congr readSide_disconnect
    · split
      · exact received_readNext _
      · exact received_congr (readSide_afterRead _)
  | send data hs hl => exact (received_congr (readSide_send data)).trans (append_nil _).symm
  | timeout hs hl => exact (received_congr readSide_disconnect).trans (append_nil _).symm
  | recvReturns epollout result hs =>
    cases result with
    | data first more =>
      rw [recvBytes, hs]
      exact received_readNext epollout
    | wouldBlock => exact (received_congr (readSide_afterRead epollout)).trans (append_nil _).symm
    | closedByPeer | failed =>
      exact (received_congr ((readSide_afterRead epollout).trans readSide_disconnect)).trans (append_nil _).symm
  | sendReturns rest result hs => exact (received_congr (readSide_sendReturns rest result)).trans (append_nil _).symm
  | skip _ hrecv hsend =>
    have hnone : recvBytes s input = [] := by
      rw [recvBytes.eq_def]
      split
      next first more =>
        cases hs : s.phase with
        | reading epollout => exact absurd rfl (hrecv epollout _ hs)
        | idle | sending | ended => rfl
      next => rfl
    rw [hnone, append_nil]

theorem received_foldl (inputs : List Input) : (inputs.foldl step s).received = s.received ++ delivered s inputs := by
  induction inputs generalizing s with
  | nil => exact (append_nil _).symm
  | cons input inputs ih => rw [foldl_cons, ih, received_step, delivered, append_assoc]

/-- The payloads that a session offers to the request ring are the blocks of the bytes that recv has delivered, however
these came in chunks and pauses, and what it holds is the incomplete block at their end. -/
theorem requests_are_blocks (inputs : List Input) : (run inputs).received = delivered start inputs ∧
      (run inputs).offered = (blocks bufferSize (run inputs).received).map terminate ∧
      (run inputs).readBuf.take (run inputs).readOffset = remainder bufferSize (run inputs).received := by
  obtain ⟨out, hoffered, htracks⟩ := (assembles_run inputs).tracks
  exact ⟨received_foldl inputs, by rw [hoffered, htracks.out_eq], htracks.pending_eq⟩

def readable : Input := .event ⟨true, false, false, false⟩

def splitBlock : List Input :=
  [readable, .recvReturns (.data 1 (replicate 599 1)), .recvReturns .wouldBlock, readable,
    .recvReturns (.data 2 (replicate 599 2))]

theorem split_block_offered : (run splitBlock).received = replicate 600 1 ++ replicate 424 2 ∧
    (run splitBlock).offered = [replicate 600 1 ++ replicate 423 2 ++ [0]] := by
  obtain ⟨hreceived, hoffered, -⟩ := requests_are_blocks splitBlock
  have hdelivered : delivered start splitBlock = replicate 600 1 ++ replicate 424 2 := by decide +kernel
  rw [hdelivered] at hreceived
  refine ⟨hreceived, hoffered.trans ?_⟩
  rw [hreceived]
  decide +kernel

end Logistics.TcpSession
