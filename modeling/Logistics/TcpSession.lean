import Logistics.Server

namespace Logistics.Sockets

/-- What the kernel answers to a recv. It returns at least one byte, and no more
than were asked for. -/
inductive RecvResult
  | data (first : UInt8) (more : List UInt8)
  | wouldBlock
  | closedByPeer
  | failed
  deriving DecidableEq

inductive SendResult
  | accepted (count : Nat)
  | wouldBlock
  | failed
  deriving DecidableEq

def terminate (block : List UInt8) : List UInt8 := block.set (block.length - 1) 0

end Logistics.Sockets

namespace Logistics.TcpSession

open Server Sockets

structure Mask where
  epollin : Bool
  epollout : Bool
  epollhup : Bool
  epollerr : Bool
  deriving DecidableEq

inductive Call
  | recv
  | send
  | modifyFd (epollout : Bool)
  | close
  deriving DecidableEq

/-- Where a session stands: in no function of its own, in the recv of
`on_readable` (called for an event that may also have EPOLLOUT), in the send of
`do_write_next` with the bytes of the frame that are left, or an exception has
left the callback. -/
inductive Phase
  | idle
  | reading (epollout : Bool)
  | sending (rest : List UInt8)
  | ended
  deriving DecidableEq

/-- A session between two system calls. The session table has an entry of it while
it is `listed`. The last five fields are records that nothing reads: the bytes
that recv returned, the payloads offered to the request ring, the messages that
it was asked to send, the bytes that send accepted, and the calls. -/
structure Session where
  readBuf : List UInt8
  readOffset : Nat
  writeQueue : List (List UInt8)
  writing : Bool
  closed : Bool
  listed : Bool
  phase : Phase
  received : List UInt8
  offered : List (List UInt8)
  requested : List (List UInt8)
  accepted : List UInt8
  calls : List Call

def start : Session := ⟨List.replicate bufferSize 0, 0, [], false, false, true, .idle, [], [], [], [], []⟩

variable (s : Session)

/-- The descriptor of a closed session is -1, for which `epoll_ctl` fails; nothing
catches the exception. -/
def modifyFd (epollout : Bool) : Session :=
  { s with calls := s.calls ++ [.modifyFd epollout], phase := if s.closed then .ended else .idle }

def close : Session := if s.closed then s else { s with closed := true, calls := s.calls ++ [.close] }

/-- The three calls of every path that ends a session: the request that
`notify_disconnect` enqueues is part of the reactor, `remove_session` takes the
session out of the table. -/
def disconnect : Session := close { s with listed := false }

def frameOf (data : List UInt8) : List UInt8 :=
  let copied := if bufferSize ≤ data.length then data.take (bufferSize - 1) else data
  copied ++ List.replicate (bufferSize - copied.length) 0

def callSend (rest : List UInt8) : Session := { s with calls := s.calls ++ [.send], phase := .sending rest }

def doWriteNext : Session :=
  match s.writeQueue with
  | [] => modifyFd { s with writing := false } false
  | data :: queue => callSend { s with writeQueue := queue } (frameOf data)

def send (data : List UInt8) : Session :=
  let s := { s with writeQueue := s.writeQueue ++ [data], requested := s.requested ++ [data] }
  if s.writing then s
  else
    let s := modifyFd { s with writing := true } true
    if s.phase = .ended then s else doWriteNext s

def onWritable : Session := if s.writing then doWriteNext s else { s with phase := .idle }

def offerBlock : Session :=
  { s with
    offered := s.offered ++ [terminate s.readBuf]
    readOffset := 0
    readBuf := List.replicate bufferSize 0 }

def readNext (epollout : Bool) : Session :=
  let s := if bufferSize - s.readOffset ≤ 0 then offerBlock s else s
  { s with calls := s.calls ++ [.recv], phase := .reading epollout }

def afterRead (epollout : Bool) : Session := if epollout then onWritable s else { s with phase := .idle }

def callback (mask : Mask) : Session :=
  if mask.epollhup ∨ mask.epollerr then disconnect s
  else if mask.epollin then readNext s mask.epollout
  else afterRead s mask.epollout

def store (bytes : List UInt8) : Session :=
  { s with
    readBuf := s.readBuf.take s.readOffset ++ bytes ++ s.readBuf.drop (s.readOffset + bytes.length)
    readOffset := s.readOffset + bytes.length
    received := s.received ++ bytes }

def recvReturns (epollout : Bool) : RecvResult → Session
  | .data first more => readNext (store s ((first :: more).take (bufferSize - s.readOffset))) epollout
  | .wouldBlock => afterRead s epollout
  | .closedByPeer => afterRead (disconnect s) epollout
  | .failed => afterRead (disconnect s) epollout

/-- A send on the descriptor -1 fails whatever the socket does. -/
def answer (result : SendResult) : SendResult := if s.closed then .failed else result

/-- The rest of a frame of which not all was accepted is not kept when the socket
would block. -/
def sendReturns (rest : List UInt8) (result : SendResult) : Session :=
  match answer s result with
  | .accepted count =>
    let s := { s with accepted := s.accepted ++ rest.take count }
    if rest.drop count = [] then doWriteNext s else callSend s (rest.drop count)
  | .wouldBlock => { s with phase := .idle }
  | .failed => { s with writing := false, phase := .idle }

inductive Input
  | event (mask : Mask)
  | send (data : List UInt8)
  | timeout
  | recvReturns (result : RecvResult)
  | sendReturns (result : SendResult)

/-- The reactor is one thread, so that events, messages and timeouts come only when
the session is in no function of its own. The event loop has no callback for a
closed session, and the server sends to sessions of the table only. -/
def step (input : Input) : Session :=
  match s.phase, input with
  | .idle, .event mask => if s.closed then s else callback s mask
  | .idle, .send data => if s.listed then send s data else s
  | .idle, .timeout => if s.listed then disconnect s else s
  | .reading epollout, .recvReturns result => recvReturns s epollout result
  | .sending rest, .sendReturns result => sendReturns s rest result
  | _, _ => s

def run (inputs : List Input) : Session := inputs.foldl step start

inductive Steps (s : Session) : Input → Session → Prop
  | event (mask : Mask) (hs : s.phase = .idle) (hc : s.closed = false) : Steps s (.event mask) (callback s mask)
  | send (data : List UInt8) (hs : s.phase = .idle) (hl : s.listed = true) : Steps s (.send data) (send s data)
  | timeout (hs : s.phase = .idle) (hl : s.listed = true) : Steps s .timeout (disconnect s)
  | recvReturns (epollout : Bool) (result : RecvResult) (hs : s.phase = .reading epollout) :
      Steps s (.recvReturns result) (recvReturns s epollout result)
  | sendReturns (rest : List UInt8) (result : SendResult) (hs : s.phase = .sending rest) :
      Steps s (.sendReturns result) (sendReturns s rest result)
  | skip (input : Input)
      (hrecv : ∀ epollout result, s.phase = .reading epollout → input ≠ .recvReturns result)
      (hsend : ∀ rest result, s.phase = .sending rest → input ≠ .sendReturns result) : Steps s input s

theorem steps_step (input : Input) : Steps s input (step s input) := by
  have hskip (hr : ∀ epollout result, s.phase = .reading epollout → input ≠ .recvReturns result)
      (hs : ∀ rest result, s.phase = .sending rest → input ≠ .sendReturns result) : Steps s input s :=
    .skip input hr hs
  cases input with
  | event mask =>
    cases hs : s.phase <;> simp only [step, hs]
    · cases hc : s.closed
      · exact .event mask hs hc
      · exact hskip nofun nofun
    all_goals exact hskip nofun nofun
  | send data =>
    cases hs : s.phase <;> simp only [step, hs]
    · cases hl : s.listed
      · exact hskip nofun nofun
      · exact .send data hs hl
    all_goals exact hskip nofun nofun
  | timeout =>
    cases hs : s.phase <;> simp only [step, hs]
    · cases hl : s.listed
      · exact hskip nofun nofun
      · exact .timeout hs hl
    all_goals exact hskip nofun nofun
  | recvReturns result =>
    cases hs : s.phase <;> simp only [step, hs]
    · exact hskip (fun _ _ h => by rw [hs] at h; cases h) nofun
    · exact .recvReturns _ result hs
    all_goals exact hskip (fun _ _ h => by rw [hs] at h; cases h) nofun
  | sendReturns result =>
    cases hs : s.phase <;> simp only [step, hs]
    case sending rest => exact .sendReturns rest result hs
    all_goals exact hskip nofun (fun _ _ h => by rw [hs] at h; cases h)

theorem disconnect_eq : disconnect s =
    { s with listed := false, closed := true, calls := if s.closed then s.calls else s.calls ++ [.close] } := by
  rw [disconnect, close]
  cases hc : s.closed <;> simp

end Logistics.TcpSession
