import Cdcf.Library.OrderedMap
import Cdcf.Library.Run
import Cdcf.Library.SetDifference
import Cdcf.Library.Framing
import Cdcf.Library.Register
import Cdcf.Library.RoundRobin
import Cdcf.Library.Retry
import Cdcf.Library.Text
import Cdcf.Library.Spread
import Cdcf.Library.Simulation
import Cdcf.Library.Threads
import Cdcf.Library.UnorderedSet
import Cdcf.Library.Triangle
import Cdcf.Library.Loop
import Cdcf.Library.Gather
import Cdcf.Library.Batches
import Cdcf.Membership.Member
import Cdcf.Membership.Message
import Cdcf.Membership.Node
import Cdcf.Membership.Handler
import Cdcf.Membership.Record
import Cdcf.Membership.Step
import Cdcf.Membership.SelfEntry
import Cdcf.Membership.SelfFlag
import Cdcf.Membership.RunningFlag
import Cdcf.Membership.Disjoint
import Cdcf.Membership.Recorded
import Cdcf.Membership.Restart
import Cdcf.Membership.PingRepair
import Cdcf.Membership.Dissemination
import Cdcf.Membership.Commute
import Cdcf.Membership.Convergence
import Cdcf.Membership.Redelivery
import Cdcf.Membership.Network
import Cdcf.Membership.Provenance
import Cdcf.Membership.RoundTrip
import Cdcf.Membership.Transfer
import Cdcf.Membership.Alive
import Cdcf.Membership.RelayChain
import Cdcf.Membership.MergeOrder
import Cdcf.Membership.Recovery
import Cdcf.Membership.Undecodable
import Cdcf.Membership.Remembered
import Cdcf.Membership.Suspicion
import Cdcf.Membership.Spread
import Cdcf.NodeKeeper.MemberEvent
import Cdcf.NodeKeeper.Replay
import Cdcf.NodeKeeper.WakeUp
import Cdcf.NodeKeeper.Publishing
import Cdcf.NodeKeeper.Channel
import Cdcf.NodeKeeper.FunctorQueue
import Cdcf.NodeKeeper.Daemon
import Cdcf.NodeKeeper.Seeds
import Cdcf.Cluster.Mirror
import Cdcf.Cluster.Subscription
import Cdcf.Cluster.Subscribers
import Cdcf.Cluster.Pipeline
import Cdcf.Gossip.Message
import Cdcf.Gossip.Decoding
import Cdcf.Gossip.ReceiveLoop
import Cdcf.Gossip.PullSession
import Cdcf.Gossip.Sending
import Cdcf.Gossip.Transport
import Cdcf.Gossip.Link
import Cdcf.Gossip.Exchange
import Cdcf.LoadBalancer.MessageId
import Cdcf.LoadBalancer.Policy
import Cdcf.LoadBalancer.Proxy
import Cdcf.LoadBalancer.Router
import Cdcf.LoadBalancer.Load
import Cdcf.LoadBalancer.Placement
import Cdcf.LoadBalancer.Tickets
import Cdcf.LoadBalancer.Replies
import Cdcf.LoadBalancer.Requests
import Cdcf.LoadBalancer.Locking
import Cdcf.LoadBalancer.Overlap
import Cdcf.LoadBalancer.Selection
import Cdcf.LoadBalancer.WorkConserving
import Cdcf.LoadBalancer.Spreading
import Cdcf.LoadBalancer.Metrics
import Cdcf.LoadBalancer.Service
import Cdcf.LoadBalancer.Answering
import Cdcf.FaultTolerance.ActorUnion
import Cdcf.FaultTolerance.GivingUp
import Cdcf.FaultTolerance.ActorGuard
import Cdcf.FaultTolerance.Deactivation
import Cdcf.RouterPool.NodeKey
import Cdcf.RouterPool.Pool
import Cdcf.RouterPool.Threads
import Cdcf.RouterPool.Addressing
import Cdcf.RouterPool.Additions
import Cdcf.RouterPool.Resizing
import Cdcf.RouterPool.Shutdown
import Cdcf.Monitoring.ActorStatus
import Cdcf.Yanghui.Table
import Cdcf.Yanghui.Job
import Cdcf.Yanghui.Rows
import Cdcf.Yanghui.Workers
import Cdcf.Yanghui.WithPriority
import Cdcf.Yanghui.PriorityJob
import Cdcf.Yanghui.FinalResult
import Cdcf.Yanghui.CountPath
import Cdcf.Yanghui.LoadBalanceJob
