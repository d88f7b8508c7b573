import BespoKV.Library.Transition
import BespoKV.Library.Pipe
import BespoKV.Library.Line
import BespoKV.Library.History
import BespoKV.Library.Overlap
import BespoKV.Library.Locks
import BespoKV.Library.Streams
import BespoKV.Library.Decimal
import BespoKV.Library.Tickets
import BespoKV.Library.Octets
import BespoKV.Library.PointRing
import BespoKV.Library.Transfer
import BespoKV.Library.Fallible
import BespoKV.Library.CInt
import BespoKV.Library.Text
import BespoKV.Library.Block
import BespoKV.Proxy.Types
import BespoKV.Proxy.Connections
import BespoKV.Proxy.Handlers
import BespoKV.Proxy.System
import BespoKV.Proxy.Traffic
import BespoKV.Proxy.Lane
import BespoKV.Proxy.Sessions
import BespoKV.Proxy.Effects
import BespoKV.Proxy.Isolation
import BespoKV.Proxy.Pending
import BespoKV.Proxy.Lines
import BespoKV.Proxy.Operations
import BespoKV.Proxy.Subscription
import BespoKV.Proxy.Alignment
import BespoKV.Proxy.Cluster
import BespoKV.Proxy.Continuum
import BespoKV.Proxy.NodeList
import BespoKV.Chain.Invariant
import BespoKV.Chain.Propagation
import BespoKV.Chain.Pipelining
import BespoKV.Chain.Linearizable
import BespoKV.Chain.Agreement
import BespoKV.Chain.Index
import BespoKV.Chain.Assertions
import BespoKV.Single.Delivery
import BespoKV.Loop.Wakeup
import BespoKV.Active.Locking
import BespoKV.Active.Replication
import BespoKV.Active.Refusal
import BespoKV.Eventual.Convergence
import BespoKV.Without.FanOut
import BespoKV.Kafka.Production
import BespoKV.Kafka.Recovery
import BespoKV.Kafka.Consumption
import BespoKV.ZooKeeper.Model
import BespoKV.ZooKeeper.Nodes
import BespoKV.ZooKeeper.Locking
import BespoKV.ZooKeeper.Failures
import BespoKV.Wire.Format
import BespoKV.Wire.RoundTrip
import BespoKV.Wire.Partial
import BespoKV.Wire.Chunks
import BespoKV.Wire.Header
import BespoKV.LibCkv.Connection
import BespoKV.LibCkv.Ketama
import BespoKV.LibCkv.Pool
import BespoKV.LibCkv.Batches
import BespoKV.LibCkv.OneKey
import BespoKV.Datalet.Stores
import BespoKV.Datalet.Strings
import BespoKV.Datalet.Replies
import BespoKV.Sockets.Sending
import BespoKV.Sockets.Reading
import BespoKV.Controller.Heartbeats
import BespoKV.Library.Leases
import BespoKV.Redlock.Model
import BespoKV.Redlock.Rounds
import BespoKV.Redlock.Invariant
import BespoKV.Redlock.Exclusion
import BespoKV.Library.Custody
import BespoKV.Datalet.Dispatch
import BespoKV.Datalet.HandOver
import BespoKV.Loop.Fdevents
import BespoKV.Loop.Backends
import BespoKV.Loop.Waiting
import BespoKV.LibCkv.Reader
import BespoKV.LibCkv.Blocks
import BespoKV.LibCkv.ReaderQueue
import BespoKV.LibCkv.Receiving
import BespoKV.LibCkv.Serving
import BespoKV.Redlock.Validity
import BespoKV.Library.Znodes
import BespoKV.ZooKeeper.Registry
import BespoKV.Proxy.Histories
import BespoKV.Single.Linearizable
import BespoKV.Replication.SingleWriter
import BespoKV.Eventual.Prefix
