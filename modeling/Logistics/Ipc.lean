import Mathlib.Data.Nat.Bitwise

namespace Logistics.Ipc

def requestQueueSize : Nat := 8192

def responseQueueSize : Nat := 8192

inductive ProtocolType
  | tcp
  | udp
  deriving DecidableEq, Repr

structure RequestSlot where
  sessionId : String
  protocol : ProtocolType
  rawJson : String
  payloadLen : Nat
  isAuthenticated : Bool
  isBlacklisted : Bool
  isDisconnect : Bool
  clientType : String
  username : String
  deriving DecidableEq, Repr

inductive ResponseCommand
  | send
  | startAckTimer
  | cancelAckTimer
  | clearTimers
  | blacklist
  | markAuthenticated
  | startKeepaliveTimer
  | resetKeepaliveTimer
  | disconnect
  | broadcast
  | mqttPublishRoute
  deriving DecidableEq, Repr

structure ResponseSlot where
  command : ResponseCommand
  sessionId : String
  payload : String
  payloadLen : Nat
  timerTimeout : Nat
  timerKey : String
  retryCount : Nat
  maxRetries : Nat
  clientType : String
  username : String
  targetUsername : String
  startAckTimer : Bool
  mqttTransactionId : Int
  deriving DecidableEq, Repr

/-- The array position of a ring counter, by masking as in the source. The 64-bit
counters are natural numbers here; an overflow does not change the position. -/
def ringIndex (size counter : Nat) : Nat := counter &&& (size - 1)

theorem requestIndex_eq (counter : Nat) : ringIndex requestQueueSize counter = counter % requestQueueSize :=
  Nat.and_two_pow_sub_one_eq_mod counter 13

theorem responseIndex_eq (counter : Nat) : ringIndex responseQueueSize counter = counter % responseQueueSize :=
  Nat.and_two_pow_sub_one_eq_mod counter 13

end Logistics.Ipc
