import DistributAr.TimeSync
import DistributAr.Base
import DistributAr.Lib.Memory
import DistributAr.TimeBuffer
import DistributAr.Wire
import DistributAr.Server
import DistributAr.Batching
import DistributAr.Network
import DistributAr.Dispatch
import DistributAr.Lib.System
import DistributAr.Lib.IStream
import DistributAr.Lib.Lease
import DistributAr.Tracker
import DistributAr.Leases
import DistributAr.Freshness
import DistributAr.Assignment
import DistributAr.ServerCommand
import DistributAr.FreeQueue
import DistributAr.Lib.Ring
import DistributAr.GraphIO
import DistributAr.Commander
import DistributAr.Allocation
import DistributAr.World
import DistributAr.Renaming
import DistributAr.Lib.Multimap
import DistributAr.Lib.Run
import DistributAr.Subscription
import DistributAr.Subscribers
import DistributAr.Membership
import DistributAr.Sequence
import DistributAr.Wiring
import DistributAr.Datagrams
import DistributAr.Sync
import DistributAr.Acks
import DistributAr.Repeats
import DistributAr.Serial
import DistributAr.GraphFile
import DistributAr.Lib.Groups
import DistributAr.Partition
import DistributAr.Lib.Approach
import DistributAr.Offset
import DistributAr.Journal
import DistributAr.Impulses
import DistributAr.Filtering
import DistributAr.Lib.Gate
import DistributAr.Received
import DistributAr.Requests
import DistributAr.Answers
import DistributAr.Decoding
import DistributAr.Retransmit
import DistributAr.Malformed
import DistributAr.ModLess
import DistributAr.Refusal
import DistributAr.Joins
import DistributAr.GraphLines
import DistributAr.Cut
import DistributAr.Loading
import DistributAr.Lib.Total
import DistributAr.Lookup
import DistributAr.Lib.Guarded
import DistributAr.Locking
import DistributAr.BlockingQueue
import DistributAr.Lib.Simulation
import DistributAr.Threads
import DistributAr.Refinement
import DistributAr.Delivery
import DistributAr.ServerRun
import DistributAr.Lan
import DistributAr.Lib.Renewal
import DistributAr.TimeServ
import DistributAr.Convergence
import DistributAr.Asking
import DistributAr.Generator
import DistributAr.CommandLine
import DistributAr.Lifetime
import DistributAr.DummyCluster
import DistributAr.Lib.Bursts
import DistributAr.Sending
import DistributAr.Truncation
