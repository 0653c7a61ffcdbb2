import Sidecar.Framework.BigEndian
import Sidecar.Framework.Firsts
import Sidecar.Framework.Last
import Sidecar.Framework.Map
import Sidecar.Framework.Network
import Sidecar.Framework.Patch
import Sidecar.Framework.Program
import Sidecar.Framework.Run
import Sidecar.Framework.Retry
import Sidecar.Framework.SolidityStorage
import Sidecar.Framework.Tasks
import Sidecar.Framework.Traversal
import Sidecar.Model.Primitives
import Sidecar.Mailbox.Matching
import Sidecar.Mailbox.Overrides
import Sidecar.Mailbox.Parser
import Sidecar.Mailbox.Storage
import Sidecar.Mailbox.StorageRead
import Sidecar.Mailbox.Trace
import Sidecar.Simulation.Rpc
import Sidecar.Simulation.ChainState
import Sidecar.Simulation.StateDiff
import Sidecar.Simulation.Exported
import Sidecar.Permissions.Engine
import Sidecar.Permissions.Snapshot
import Sidecar.Net.Forward
import Sidecar.Net.Ws
import Sidecar.Net.Framing
import Sidecar.Net.Client
import Sidecar.Permissions.Stream
import Sidecar.Coordinator.PendingXt
import Sidecar.Coordinator.State
import Sidecar.Coordinator.Registration
import Sidecar.Coordinator.Decision
import Sidecar.Coordinator.Pipeline
import Sidecar.Coordinator.MailboxKeys
import Sidecar.Coordinator.Step
import Sidecar.Coordinator.Commands
import Sidecar.Coordinator.Admission
import Sidecar.Coordinator.Entry
import Sidecar.Coordinator.RegistrationRoutes
import Sidecar.Coordinator.Stability
import Sidecar.Coordinator.Validity
import Sidecar.Coordinator.Authority
import Sidecar.Coordinator.Wait
import Sidecar.Coordinator.LostWakeup
import Sidecar.Coordinator.Process
import Sidecar.Coordinator.ProcessRun
import Sidecar.Coordinator.CommitVote
import Sidecar.Coordinator.NonceManager
import Sidecar.Coordinator.NonceHistory
import Sidecar.Coordinator.NonceLane
import Sidecar.Coordinator.Tasks
import Sidecar.Coordinator.Handler
import Sidecar.Coordinator.Release
import Sidecar.Coordinator.Rollback
import Sidecar.Coordinator.TaskOps
import Sidecar.Coordinator.TaskEffect
import Sidecar.Coordinator.WorldRun
import Sidecar.Coordinator.BuilderOrder
import Sidecar.Coordinator.Lineage
import Sidecar.Coordinator.Equivocation
import Sidecar.Coordinator.Standalone
import Sidecar.Coordinator.Peer
import Sidecar.Coordinator.Agreement
import Sidecar.Coordinator.Overlay
import Sidecar.Coordinator.MailboxLedger
import Sidecar.Coordinator.MailboxConservation
import Sidecar.Coordinator.Representation
import Sidecar.Coordinator.EarlyMailbox
import Sidecar.Coordinator.Delivery
import Sidecar.Coordinator.Isolation
import Sidecar.Coordinator.FrameOrder
import Sidecar.Coordinator.StandaloneVote
import Sidecar.Coordinator.VoteDelivery
import Sidecar.Coordinator.PeriodChange
import Sidecar.Coordinator.CommandFailure
import Sidecar.Coordinator.StartAnswered
import Sidecar.Coordinator.Replacement
import Sidecar.Mailbox.TraceOrder
import Sidecar.Coordinator.Submission
import Sidecar.Coordinator.LiveSubmission
import Sidecar.Coordinator.JoinedSubmission
import Sidecar.Framework.Chunks
import Sidecar.Net.FrameStream
import Sidecar.Coordinator.MatchingOrder
import Sidecar.Permissions.ListingOrder
import Sidecar.Framework.Lock
import Sidecar.Net.Connection
import Sidecar.Coordinator.RetryBound
import Sidecar.Coordinator.Status
import Sidecar.Coordinator.PendingGauge
import Sidecar.Coordinator.Rest
import Sidecar.Coordinator.Authentic
import Sidecar.Coordinator.Duties
import Sidecar.Coordinator.Atomicity
import Sidecar.Coordinator.Chained
import Sidecar.Framework.SolidityAbi
import Sidecar.Mailbox.PutInbox
import Sidecar.Coordinator.LaneUse
import Sidecar.Coordinator.ReleasedTxs
import Sidecar.Coordinator.CommitRefinement
import Sidecar.Coordinator.PolicyInForce
