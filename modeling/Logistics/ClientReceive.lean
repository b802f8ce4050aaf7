import Logistics.Framing
import Logistics.TcpWrites

namespace Logistics.ClientReceive

open Framing Ipc Server Sockets TcpSession List

/-- The receiver thread between two calls of recv: what the running call of
`client_receive` has put into the buffer, and the buffers that were handed on to be
parsed and handled. The bytes that recv returned are recorded. -/
structure Receiver where
  buffer : List UInt8
  exited : Bool
  handed : List (List UInt8)
  received : List UInt8

def start : Receiver := ⟨[], false, [], []⟩

variable (r : Receiver)

def tcpRecv : RecvResult → Receiver
  | .data first more =>
    let bytes := (first :: more).take (bufferSize - r.buffer.length)
    let r := { r with buffer := r.buffer ++ bytes, received := r.received ++ bytes }
    if r.buffer.length < bufferSize then r
    else { r with buffer := [], handed := r.handed ++ [terminate r.buffer] }
  | .wouldBlock => { r with buffer := [] }
  | .closedByPeer => { r with exited := true }
  | .failed => { r with exited := true }

def udpRecv : RecvResult → Receiver
  | .data first more =>
    let bytes := (first :: more).take (bufferSize - 1)
    { r with
      handed := r.handed ++ [bytes ++ replicate (bufferSize - bytes.length) 0]
      received := r.received ++ bytes }
  | .wouldBlock => r
  | .closedByPeer => r
  | .failed => { r with exited := true }

def recvReturns (protocol : ProtocolType) (result : RecvResult) : Receiver :=
  if r.exited then r
  else
    match protocol with
    | .tcp => tcpRecv r result
    | .udp => udpRecv r result

def receiverThread (protocol : ProtocolType) (results : List RecvResult) : Receiver :=
  results.foldl (recvReturns · protocol) start

variable {r}

def Complete (r : Receiver) : Prop := r.handed.length * bufferSize + r.buffer.length = r.received.length

structure Sound (r : Receiver) : Prop where
  buffer_lt : r.buffer.length < bufferSize
  le : r.handed.length * bufferSize + r.buffer.length ≤ r.received.length
  tracks : Complete r → ∃ out, r.handed = out.map terminate ∧ Tracks bufferSize r.received out r.buffer

def AtBoundary (r : Receiver) (result : RecvResult) : Prop := r.exited = false → result = .wouldBlock → r.buffer = []

variable {bytes : List UInt8}

theorem sound_data (h : Sound r) (hbytes : r.buffer.length + bytes.length < bufferSize) :
    Sound { r with buffer := r.buffer ++ bytes, received := r.received ++ bytes } := by
  have hle := h.le
  refine ⟨by rwa [length_append], ?_, fun hc => ?_⟩
  · simp only [length_append]
    omega
  · have hcomplete : Complete r := by
      simp only [Complete, length_append] at hc ⊢
      omega
    obtain ⟨out, hhanded, htracks⟩ := h.tracks hcomplete
    exact ⟨out, hhanded, htracks.more (by rwa [length_append])⟩

theorem sound_full (h : Sound r) (hbytes : r.buffer.length + bytes.length = bufferSize) : Sound { r with
      buffer := [], handed := r.handed ++ [terminate (r.buffer ++ bytes)], received := r.received ++ bytes } := by
  have hle := h.le
  have hpos : 0 < bufferSize := Nat.zero_lt_of_lt h.buffer_lt
  refine ⟨hpos, ?_, fun hc => ?_⟩
  · simp only [length_append, length_singleton, length_nil, Nat.succ_mul]
    omega
  · have hcomplete : Complete r := by
      simp only [Complete, length_append, length_singleton, length_nil, Nat.succ_mul] at hc ⊢
      omega
    obtain ⟨out, hhanded, htracks⟩ := h.tracks hcomplete
    refine ⟨out ++ [r.buffer ++ bytes], ?_, htracks.full hpos (by rwa [length_append])⟩
    rw [map_append, ← hhanded, map_singleton]

theorem sound_timeout (h : Sound r) : Sound { r with buffer := [] } := by
  have hle := h.le
  refine ⟨Nat.zero_lt_of_lt h.buffer_lt, ?_, fun hc => ?_⟩
  · simp only [length_nil]
    omega
  · have hcomplete : Complete r ∧ r.buffer = [] := by
      simp only [Complete, length_nil, ← length_eq_zero_iff] at hc ⊢
      omega
    obtain ⟨out, hhanded, htracks⟩ := h.tracks hcomplete.1
    exact ⟨out, hhanded, hcomplete.2 ▸ htracks⟩

theorem tcpRecv_data (first : UInt8) (more : List UInt8) (h : Sound r) :
    ∃ bytes, (r.buffer.length + bytes.length < bufferSize ∧
        tcpRecv r (.data first more) = { r with buffer := r.buffer ++ bytes, received := r.received ++ bytes }) ∨
      (r.buffer.length + bytes.length = bufferSize ∧
        tcpRecv r (.data first more) = { r with
          buffer := []
          handed := r.handed ++ [terminate (r.buffer ++ bytes)]
          received := r.received ++ bytes }) := by
  have hlt := h.buffer_lt
  have hlen := length_take_le (bufferSize - r.buffer.length) (first :: more)
  refine ⟨(first :: more).take (bufferSize - r.buffer.length), ?_⟩
  rw [tcpRecv]
  split
  · next hroom =>
    rw [length_append] at hroom
    exact .inl ⟨hroom, rfl⟩
  · next hroom =>
    rw [length_append] at hroom
    exact .inr ⟨by omega, rfl⟩

theorem sound_start : Sound start := ⟨by decide, Nat.le_refl _, fun _ => ⟨[], rfl, tracks_nil⟩⟩

theorem sound_recvReturns (result : RecvResult) (h : Sound r) : Sound (recvReturns r .tcp result) := by
  rw [recvReturns]
  split
  · exact h
  · cases result with
    | data first more =>
      obtain ⟨bytes, ⟨hbytes, he⟩ | ⟨hbytes, he⟩⟩ := tcpRecv_data first more h
      · exact he ▸ sound_data h hbytes
      · exact he ▸ sound_full h hbytes
    | wouldBlock => exact sound_timeout h
    | closedByPeer | failed => exact ⟨h.buffer_lt, h.le, h.tracks⟩

theorem complete_recvReturns_iff (result : RecvResult) (h : Sound r) :
    Complete (recvReturns r .tcp result) ↔ Complete r ∧ AtBoundary r result := by
  have hle := h.le
  rw [recvReturns, AtBoundary]
  split
  · next hexited => simp [hexited]
  · next hexited =>
    cases result with
    | data first more =>
      have hsame : Complete (tcpRecv r (.data first more)) ↔ Complete r := by
        obtain ⟨bytes, ⟨hbytes, he⟩ | ⟨hbytes, he⟩⟩ := tcpRecv_data first more h
        · rw [he]
          simp only [Complete, length_append]
          omega
        · rw [he]
          simp only [Complete, length_append, length_singleton, length_nil, Nat.succ_mul]
          omega
      simpa using hsame
    | wouldBlock =>
      simp only [hexited, tcpRecv, Complete, length_nil, ← length_eq_zero_iff, forall_const]
      omega
    | closedByPeer | failed => simp [tcpRecv, Complete]

theorem terminate_frameOf (data : List UInt8) : terminate (frameOf data) = frameOf data := by
  rw [terminate, length_frameOf, frameOf]
  have hcopied : (if bufferSize ≤ data.length then data.take (bufferSize - 1) else data).length ≤ bufferSize - 1 := by
    split
    · exact length_take_le _ _
    · omega
  rw [set_append_right _ _ hcopied, set_replicate_self]

theorem tracks_stream (messages : List (List UInt8)) :
    Tracks bufferSize (stream messages) (messages.map frameOf) [] := by
  refine tracks_flatten (by decide) _ fun frame hframe => ?_
  obtain ⟨data, -, rfl⟩ := mem_map.mp hframe
  exact length_frameOf data

theorem length_stream (messages : List (List UInt8)) : (stream messages).length = messages.length * bufferSize := by
  rw [stream, length_flatMap, map_congr_left fun data _ => length_frameOf data]
  simp

theorem handed_frames_iff {messages : List (List UInt8)} (h : Sound r) (hr : r.received = stream messages) :
    r.handed = messages.map frameOf ↔ Complete r := by
  constructor
  · intro hhanded
    have hle := h.le
    rw [hr, length_stream, hhanded, length_map] at hle
    rw [Complete, hr, length_stream, hhanded, length_map]
    omega
  · intro hcomplete
    obtain ⟨out, hhanded, htracks⟩ := h.tracks hcomplete
    have hout : out = messages.map frameOf := by
      rw [htracks.out_eq, hr, ← (tracks_stream messages).out_eq]
    rw [hhanded, hout, map_map]
    exact map_congr_left fun data _ => terminate_frameOf data

/-- The client hands on the frames it was sent exactly when recv times out at the boundaries
of frames only. -/
theorem client_frames_iff (messages : List (List UInt8)) (results : List RecvResult)
    (h : (receiverThread .tcp results).received = stream messages) :
    (receiverThread .tcp results).handed = messages.map frameOf ↔
      ∀ before result, before ++ [result] <+: results → AtBoundary (receiverThread .tcp before) result := by
  have hrun : Sound (receiverThread .tcp results) ∧ (Complete (receiverThread .tcp results) ↔
      ∀ before result, before ++ [result] <+: results → AtBoundary (receiverThread .tcp before) result) :=
    Reachability.last_iff (I := Sound) (P := Complete) sound_start (fun _ result h => sound_recvReturns result h)
      (show Complete start from rfl) (fun _ result h => complete_recvReturns_iff result h) results
  exact (handed_frames_iff hrun.1 h).trans hrun.2

def splitFrame : List RecvResult :=
  [.data 97 (replicate 99 0), .data 0 (replicate 923 0), .wouldBlock, .data 98 (replicate 1023 0)]

theorem split_frame_handed : (receiverThread .tcp splitFrame).received = stream [[97], [98]] ∧
      (receiverThread .tcp splitFrame).handed = [frameOf [97], frameOf [98]] := by
  have hreceived : (receiverThread .tcp splitFrame).received = stream [[97], [98]] := by decide +kernel
  refine ⟨hreceived, (client_frames_iff [[97], [98]] splitFrame hreceived).mpr ?_⟩
  rintro before result ⟨rest, hpre⟩ - rfl
  have hbefore : before = splitFrame.take 2 := by
    rcases before with _ | ⟨_, _ | ⟨_, _ | ⟨_, _ | ⟨_, before⟩⟩⟩⟩
    · cases hpre
    · cases hpre
    · cases hpre
      rfl
    · cases hpre
    · exact absurd (cons.inj (cons.inj (cons.inj (cons.inj hpre).2).2).2).2 (by simp)
  rw [hbefore]
  decide +kernel

def timeoutInFrame : List RecvResult :=
  [.data 97 (replicate 99 0), .wouldBlock, .data 0 (replicate 923 0), .data 98 (replicate 1023 0),
    .data 0 (replicate 923 0)]

theorem timeout_shifts_frames : (receiverThread .tcp timeoutInFrame).received = stream [[97], [98]] ∧
      (receiverThread .tcp timeoutInFrame).handed = [replicate 924 0 ++ 98 :: replicate 99 0] ∧
      (receiverThread .tcp timeoutInFrame).handed ≠ [[97], [98]].map frameOf := by
  decide +kernel

end Logistics.ClientReceive
