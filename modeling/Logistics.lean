import Logistics.AckBookkeeping
import Logistics.ActiveRuns
import Logistics.AuthVisibility
import Logistics.BacklogPasses
import Logistics.Broadcasts
import Logistics.Cancellation
import Logistics.ChatHub
import Logistics.CircuitBreaker
import Logistics.ClientIdentity
import Logistics.ClientReceive
import Logistics.ClientTimers
import Logistics.ClosedSessions
import Logistics.Commitment
import Logistics.ConnectionPool
import Logistics.CycleTheorem
import Logistics.DeferredCalls
import Logistics.DeliveryTheorem
import Logistics.EventLoop
import Logistics.GatewayAcks
import Logistics.LogRotation
import Logistics.NoticeTheorem
import Logistics.OrderAmounts
import Logistics.OrderCommits
import Logistics.OrderTheorem
import Logistics.OwnershipTheorem
import Logistics.PendingQueue
import Logistics.PluginResponses
import Logistics.PoolConservation
import Logistics.RateLimiter
import Logistics.RequestRingRuns
import Logistics.ResponseRing
import Logistics.RestAnswers
import Logistics.RetryBound
import Logistics.RetryTheorem
import Logistics.RouteLog
import Logistics.SingleAssignment
import Logistics.StockFlags
import Logistics.StrandedOrders
import Logistics.TimerCancellation
import Logistics.UdpSessions
