import Logistics.SessionManager
import Logistics.TimerManager

namespace Logistics.Server

open Ipc JsonManager SessionManager TimerManager Worker

def bufferSize : Nat := 1024

def broadcastBatchSize : Nat := 100

structure Batch where
  targets : List String
  resp : Slot

structure Sent where
  info : SessionInfo
  data : Frame

/-- The state of the reactor process. The request ring is the list of all slots
that were written to it, of which the workers have taken the first `taken`. The
frames handed to sockets are recorded; nothing reads the record. -/
structure Reactor where
  sessions : Sessions
  timers : Timers
  posted : List Batch
  requests : List RequestSlot
  taken : Nat
  sent : List Sent

def start : Reactor := ⟨SessionManager.start, TimerManager.start, [], [], 0, []⟩

variable (cfg : Config) (now : Nat) (r : Reactor)

def pushRequest (req : RequestSlot) : Reactor :=
  if r.requests.length - r.taken < requestQueueSize then { r with requests := r.requests ++ [req] } else r

def requestFor (m : Sessions) (protocol : ProtocolType) (sessionId rawJson : String) (payloadLen : Nat) :
    RequestSlot where
  sessionId := sessionId
  protocol := protocol
  rawJson := rawJson
  payloadLen := payloadLen
  isAuthenticated := isAuthenticated m sessionId
  isBlacklisted := isBlacklisted m sessionId
  isDisconnect := false
  clientType := safeStrcpy roleSize (getClientType m sessionId)
  username := safeStrcpy credentialsSize (((getSessionInfo m sessionId).map SessionInfo.username).getD "")

def disconnectOf (info : SessionInfo) : RequestSlot where
  sessionId := info.sessionId
  protocol := .tcp
  rawJson := ""
  payloadLen := 0
  isAuthenticated := true
  isBlacklisted := false
  isDisconnect := true
  clientType := safeStrcpy roleSize info.clientType
  username := safeStrcpy credentialsSize info.username

def notifyDisconnect (info : SessionInfo) : Reactor :=
  if (info.type = .tcp ∧ info.isAuthenticated = false) ∨ info.username = "" then r
  else pushRequest r (disconnectOf info)

/-- Every path that removes a TCP session from the table also closes its socket,
so that the connections are the TCP sessions of the table. -/
def removeSession (sessionId : String) : Reactor :=
  { r with sessions := SessionManager.removeSession r.sessions sessionId }

def onAccept : Reactor := { r with sessions := (createSession r.sessions).2 }

def onFrame (sessionId rawJson : String) : Reactor :=
  match getSessionInfo r.sessions sessionId with
  | none => r
  | some info => if info.type = .tcp then pushRequest r (requestFor r.sessions .tcp sessionId rawJson bufferSize) else r

def onHangup (sessionId : String) : Reactor :=
  match getSessionInfo r.sessions sessionId with
  | none => r
  | some info => if info.type = .tcp then removeSession (notifyDisconnect r info) sessionId else r

def onDatagram (sender : Address) (rawJson : String) (payloadLen : Nat) : Reactor :=
  let session := getOrCreateUdpSession r.sessions sender
  pushRequest { r with sessions := session.2 } (requestFor session.2 .udp session.1 rawJson payloadLen)

def sendToSession (sessionId : String) (data : Frame) : Reactor :=
  match getSessionInfo r.sessions sessionId with
  | none => r
  | some info => { r with sent := r.sent ++ [⟨info, data⟩] }

def startAckTimer (sessionId timerKey : String) (timeout : Nat) (payload : Frame) (retryCount maxRetries : Nat) :
    Reactor :=
  { r with timers := TimerManager.startAckTimer r.timers now sessionId timerKey timeout
            (.ackTimeout sessionId timerKey payload retryCount maxRetries) }

def clearSessionTimers (sessionId : String) : Reactor :=
  { r with timers := TimerManager.clearSessionTimers r.timers sessionId }

def blacklistSession (sessionId : String) : Reactor :=
  { r with sessions := SessionManager.blacklistSession r.sessions sessionId }

def handleKeepaliveTimeout (sessionId : String) : Reactor :=
  let r := clearSessionTimers r sessionId
  match getSessionInfo r.sessions sessionId with
  | none => r
  | some info => removeSession (notifyDisconnect r info) sessionId

/-- The retries are counted in 32 bits, and no retries at all wraps to the
largest count. -/
def lastRetry (maxRetries : Nat) : Nat := (maxRetries + (2 ^ 32 - 1)) % 2 ^ 32

def handleAckTimeout (sessionId timerKey : String) (payload : Frame) (retryCount maxRetries : Nat) : Reactor :=
  match getSessionInfo r.sessions sessionId with
  | none => r
  | some info =>
    if lastRetry maxRetries ≤ retryCount then
      let r := clearSessionTimers r sessionId
      if info.type = .tcp then removeSession (notifyDisconnect r info) sessionId
      else blacklistSession (notifyDisconnect r info) sessionId
    else
      startAckTimer now (sendToSession r sessionId payload) sessionId timerKey cfg.ackTimeout payload
        (retryCount + 1) maxRetries

def fire : Callback → Reactor
  | .ackTimeout sessionId timerKey payload retryCount maxRetries =>
    handleAckTimeout cfg now r sessionId timerKey payload retryCount maxRetries
  | .keepaliveTimeout sessionId => handleKeepaliveTimeout r sessionId

/-- All due entries are taken out before the first callback runs. -/
def onTimerfdReady : Reactor :=
  ((dueEntries r.timers now).map TimerEntry.callback).foldl (fire cfg now)
    { r with timers := withoutDue r.timers now }

def needAck (resp : Slot) : Bool := resp.startAckTimer ∧ 0 < resp.timerTimeout

def broadcastTo (resp : Slot) (r : Reactor) (target : String) : Reactor :=
  if hasSession r.sessions target then
    let r := sendToSession r target resp.payload
    if needAck resp ∧ getClientType r.sessions target ≠ cli then
      startAckTimer now r target resp.timerKey resp.timerTimeout resp.payload resp.retryCount resp.maxRetries
    else r
  else r

def sendBatch (r : Reactor) (batch : Batch) : Reactor := batch.targets.foldl (broadcastTo now batch.resp) r

def onWakeup : Reactor := r.posted.foldl (sendBatch now) { r with posted := [] }

def sendTarget (m : Sessions) (resp : Slot) : Option String :=
  if resp.sessionId = "" ∧ resp.targetUsername ≠ "" then findSessionByUsername m resp.targetUsername
  else some resp.sessionId

def dispatchSend (resp : Slot) : Reactor :=
  match sendTarget r.sessions resp with
  | none => r
  | some target =>
    let r := sendToSession r target resp.payload
    if needAck resp then
      startAckTimer now r target resp.timerKey resp.timerTimeout resp.payload resp.retryCount resp.maxRetries
    else r

def laterBatches (sessions : List String) (resp : Slot) : List Batch :=
  (List.range ((sessions.length - 1) / broadcastBatchSize)).map fun k =>
    ⟨(sessions.drop ((k + 1) * broadcastBatchSize)).take broadcastBatchSize, resp⟩

def dispatchBroadcast (resp : Slot) : Reactor :=
  let sessions := getAuthenticatedSessions r.sessions
  let r := sendBatch now r ⟨sessions.take broadcastBatchSize, resp⟩
  { r with posted := r.posted ++ laterBatches sessions resp }

abbrev Discarded (m : Sessions) (resp : Slot) : Prop :=
  resp.sessionId ≠ "" ∧ resp.command ≠ .markAuthenticated ∧ hasSession m resp.sessionId = false

/-- The route of an MQTT slot is assigned by the MQTT client of the reactor
process, which holds no part of this state. -/
def dispatchResponse (resp : Slot) : Reactor :=
  if Discarded r.sessions resp then r
  else
    match resp.command with
    | .send => dispatchSend now r resp
    | .startAckTimer =>
      startAckTimer now r resp.sessionId resp.timerKey resp.timerTimeout resp.payload resp.retryCount
        resp.maxRetries
    | .cancelAckTimer => { r with timers := cancelAckTimer r.timers resp.sessionId resp.timerKey }
    | .clearTimers => clearSessionTimers r resp.sessionId
    | .blacklist => blacklistSession r resp.sessionId
    | .markAuthenticated =>
      { r with sessions := markAuthenticated r.sessions resp.sessionId resp.clientType resp.username }
    | .startKeepaliveTimer => { r with timers := startKeepaliveTimer r.timers now resp.sessionId resp.timerTimeout }
    | .resetKeepaliveTimer => { r with timers := resetKeepaliveTimer r.timers now resp.sessionId }
    | .disconnect => handleKeepaliveTimeout r resp.sessionId
    | .broadcast => dispatchBroadcast now r resp
    | .mqttPublishRoute => r

inductive Event
  | accept
  | frame (sessionId rawJson : String)
  | hangup (sessionId : String)
  | datagram (sender : Address) (rawJson : String) (payloadLen : Nat)
  | expire (now : Nat)
  | wakeup (now : Nat)

def takeRequest : Reactor := { r with taken := r.taken + 1 }

def Event.apply : Event → Reactor
  | .accept => onAccept r
  | .frame sessionId rawJson => onFrame r sessionId rawJson
  | .hangup sessionId => onHangup r sessionId
  | .datagram sender rawJson payloadLen => onDatagram r sender rawJson payloadLen
  | .expire now => onTimerfdReady cfg now r
  | .wakeup now => onWakeup now r

variable {cfg now r}

@[simp] theorem pushRequest_sessions (req : RequestSlot) : (pushRequest r req).sessions = r.sessions := by
  rw [pushRequest]
  split <;> rfl

@[simp] theorem pushRequest_timers (req : RequestSlot) : (pushRequest r req).timers = r.timers := by
  rw [pushRequest]
  split <;> rfl

@[simp] theorem notifyDisconnect_sessions (info : SessionInfo) : (notifyDisconnect r info).sessions = r.sessions := by
  rw [notifyDisconnect]
  split
  · rfl
  · exact pushRequest_sessions _

@[simp] theorem notifyDisconnect_timers (info : SessionInfo) : (notifyDisconnect r info).timers = r.timers := by
  rw [notifyDisconnect]
  split
  · rfl
  · exact pushRequest_timers _

@[simp] theorem sendToSession_sessions (sessionId : String) (data : Frame) :
    (sendToSession r sessionId data).sessions = r.sessions := by
  rw [sendToSession]
  split <;> rfl

@[simp] theorem sendToSession_timers (sessionId : String) (data : Frame) :
    (sendToSession r sessionId data).timers = r.timers := by
  rw [sendToSession]
  split <;> rfl

@[simp] theorem broadcastTo_sessions (resp : Slot) (target : String) :
    (broadcastTo now resp r target).sessions = r.sessions := by
  rw [broadcastTo]
  split
  · dsimp only
    split <;> exact sendToSession_sessions _ _
  · rfl

@[simp] theorem sendBatch_sessions (batch : Batch) : (sendBatch now r batch).sessions = r.sessions := by
  rw [sendBatch]
  induction batch.targets generalizing r with
  | nil => rfl
  | cons target targets ih => rw [List.foldl_cons, ih, broadcastTo_sessions]

@[simp] theorem dispatchSend_sessions (resp : Slot) : (dispatchSend now r resp).sessions = r.sessions := by
  rw [dispatchSend]
  split
  · rfl
  · dsimp only
    split <;> exact sendToSession_sessions _ _

@[simp] theorem onWakeup_sessions : (onWakeup now r).sessions = r.sessions := by
  have hbatches (r' : Reactor) : (r.posted.foldl (sendBatch now) r').sessions = r'.sessions := by
    induction r.posted generalizing r' with
    | nil => rfl
    | cons batch batches ih => rw [List.foldl_cons, ih, sendBatch_sessions]
  exact hbatches _

theorem handleKeepaliveTimeout_timers (sessionId : String) :
    (handleKeepaliveTimeout r sessionId).timers = TimerManager.clearSessionTimers r.timers sessionId := by
  rw [handleKeepaliveTimeout]
  split
  · rfl
  · exact notifyDisconnect_timers _

end Logistics.Server
