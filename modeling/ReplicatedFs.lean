import ReplicatedFs.Library.Run
import ReplicatedFs.Library.Indexed
import ReplicatedFs.Library.Election
import ReplicatedFs.Library.Contest
import ReplicatedFs.Library.Footprint
import ReplicatedFs.Library.BigEndian
import ReplicatedFs.Library.Timer
import ReplicatedFs.Library.Channel
import ReplicatedFs.Library.Slice
import ReplicatedFs.Library.Posix.Tree
import ReplicatedFs.Library.Posix.Calls
import ReplicatedFs.Library.Posix.Locality
import ReplicatedFs.Library.Posix.Os
import ReplicatedFs.Library.Posix.Success
import ReplicatedFs.Library.Posix.Disk
import ReplicatedFs.Library.Posix.Names
import ReplicatedFs.Library.Posix.Content
import ReplicatedFs.Library.Posix.Overwrite
import ReplicatedFs.Library.Posix.Entries
import ReplicatedFs.Library.Posix.Outline
import ReplicatedFs.Library.Posix.Inside
import ReplicatedFs.Protobuf.Message
import ReplicatedFs.Protobuf.Codec
import ReplicatedFs.Connection.Perspective
import ReplicatedFs.Connection.NetOp
import ReplicatedFs.Connection.Connection
import ReplicatedFs.Connection.Pool
import ReplicatedFs.Connection.Transfer
import ReplicatedFs.Config.Config
import ReplicatedFs.Connection.Backoff
import ReplicatedFs.Connection.Dial
import ReplicatedFs.Mirror.Mirror
import ReplicatedFs.Mirror.Consult
import ReplicatedFs.P2p.Transaction
import ReplicatedFs.P2p.Host
import ReplicatedFs.P2p.Listener
import ReplicatedFs.P2p.Service
import ReplicatedFs.P2p.Node
import ReplicatedFs.P2p.Cluster
import ReplicatedFs.P2p.Listening
import ReplicatedFs.Rfs.Replicate
import ReplicatedFs.Rfs.Root
import ReplicatedFs.Rfs.Request
import ReplicatedFs.Rfs.Replica
import ReplicatedFs.Rfs.Copy
import ReplicatedFs.Rfs.Fleet
import ReplicatedFs.Main
import ReplicatedFs.Proofs.Connection.Verdict
import ReplicatedFs.Proofs.Connection.Frames
import ReplicatedFs.Proofs.Connection.Delivery
import ReplicatedFs.Proofs.Connection.PoolStep
import ReplicatedFs.Proofs.Connection.MutualDial
import ReplicatedFs.Proofs.Connection.Teardown
import ReplicatedFs.Proofs.Connection.Shutdown
import ReplicatedFs.Proofs.Connection.Count
import ReplicatedFs.Proofs.Connection.Authentication
import ReplicatedFs.Proofs.Connection.Backoff
import ReplicatedFs.Proofs.Connection.Redial
import ReplicatedFs.Proofs.Config.Pop
import ReplicatedFs.Proofs.P2p.HostStep
import ReplicatedFs.Proofs.P2p.HostInvariant
import ReplicatedFs.Proofs.P2p.HostRun
import ReplicatedFs.Proofs.P2p.Approval
import ReplicatedFs.Proofs.P2p.SystemStep
import ReplicatedFs.Proofs.P2p.SystemInvariant
import ReplicatedFs.Proofs.P2p.Votes
import ReplicatedFs.Proofs.P2p.Table
import ReplicatedFs.Proofs.P2p.AtomicCommit
import ReplicatedFs.Proofs.P2p.NilRequest
import ReplicatedFs.Proofs.P2p.Listen
import ReplicatedFs.Proofs.P2p.FaultFree
import ReplicatedFs.Proofs.P2p.Progress
import ReplicatedFs.Proofs.P2p.Listening
import ReplicatedFs.Proofs.P2p.Agreement
import ReplicatedFs.Proofs.P2p.ExactlyOnce
import ReplicatedFs.Proofs.P2p.Drain
import ReplicatedFs.Proofs.P2p.NodeStep
import ReplicatedFs.Proofs.P2p.NodeFlow
import ReplicatedFs.Proofs.P2p.NodeCommit
import ReplicatedFs.Proofs.P2p.NodeClose
import ReplicatedFs.Proofs.P2p.Conflicts
import ReplicatedFs.Proofs.P2p.RoundInvariant
import ReplicatedFs.Proofs.P2p.Rounds
import ReplicatedFs.Proofs.P2p.StampedRounds
import ReplicatedFs.Proofs.Mirror.Verdict
import ReplicatedFs.Proofs.Mirror.Usable
import ReplicatedFs.Proofs.Mirror.Promise
import ReplicatedFs.Proofs.Mirror.Commute
import ReplicatedFs.Proofs.P2p.Crash
import ReplicatedFs.Proofs.P2p.Retry
import ReplicatedFs.Proofs.P2p.OnWire
import ReplicatedFs.Proofs.Rfs.Permission
import ReplicatedFs.Proofs.Rfs.Starvation
import ReplicatedFs.Proofs.Rfs.Addressing
import ReplicatedFs.Proofs.Rfs.Metadata
import ReplicatedFs.Proofs.Rfs.Parallel
import ReplicatedFs.Proofs.Rfs.FleetStep
import ReplicatedFs.Proofs.Rfs.Consent
import ReplicatedFs.Proofs.Rfs.Liveness
import ReplicatedFs.Proofs.Rfs.Applied
import ReplicatedFs.Proofs.Rfs.Epoch
import ReplicatedFs.Proofs.Rfs.Convergence
import ReplicatedFs.Proofs.Rfs.Writes
import ReplicatedFs.Proofs.Rfs.Copies
import ReplicatedFs.Proofs.Rfs.Handles
