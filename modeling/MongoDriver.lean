import MongoDriver.Base.OrderedMap
import MongoDriver.Base.Run
import MongoDriver.Base.Heap
import MongoDriver.Base.Filling
import MongoDriver.Base.Base64
import MongoDriver.Base.Number
import MongoDriver.Base.Double
import MongoDriver.Base.Value
import MongoDriver.Bson
import MongoDriver.Error
import MongoDriver.ReadPreference
import MongoDriver.Sdam.ServerDescription
import MongoDriver.Sdam.TopologyDescription
import MongoDriver.Sdam.Update
import MongoDriver.Sdam.Invariant
import MongoDriver.Sdam.Election
import MongoDriver.Sdam.SecondLook
import MongoDriver.Sdam.Identification
import MongoDriver.Sdam.Ruling
import MongoDriver.Sdam.ForeignMembers
import MongoDriver.Sdam.Server
import MongoDriver.Sdam.Topology
import MongoDriver.Sdam.Freshness
import MongoDriver.Sdam.ClusterTime
import MongoDriver.Sdam.SrvPolling
import MongoDriver.Sdam.SrvHosts
import MongoDriver.Sdam.WireVersions
import MongoDriver.Sdam.DerivedFields
import MongoDriver.Sdam.ChangeEvents
import MongoDriver.Sdam.AddressIdentity
import MongoDriver.Sdam.ServerSelection
import MongoDriver.Sdam.ReadPreferenceSelection
import MongoDriver.Sdam.SelectionLedger
import MongoDriver.Sdam.Lifecycle
import MongoDriver.Cmap.Connection
import MongoDriver.Cmap.ConnectionPool
import MongoDriver.Cmap.Capacity
import MongoDriver.Cmap.WaitQueue
import MongoDriver.Cmap.HandOut
import MongoDriver.Cmap.Checkout
import MongoDriver.Cmap.Commands
import MongoDriver.Cmap.RequestIds
import MongoDriver.Cmap.BufferPool
import MongoDriver.Cmap.MessageStream
import MongoDriver.Cmap.Framing
import MongoDriver.Cmap.HostileBytes
import MongoDriver.Cmap.Encoding
import MongoDriver.Cmap.WireFormat
import MongoDriver.Cmap.Sections
import MongoDriver.Cmap.CommandWrite
import MongoDriver.Cmap.Gossip
import MongoDriver.Cmap.Compression
import MongoDriver.Cmap.WriteRefinement
import MongoDriver.Cmap.Completion
import MongoDriver.Cmap.Counts
import MongoDriver.Auth.HiCache
import MongoDriver.Auth.Scram
import MongoDriver.Querypie.Pause
import MongoDriver.Querypie.Listeners
import MongoDriver.Querypie.Resume
import MongoDriver.Querypie.Waiters
import MongoDriver.Querypie.Shutdown
import MongoDriver.Querypie.Hooks
import MongoDriver.Operations.Execute
import MongoDriver.Sessions.ServerSession
import MongoDriver.Sessions.Expiry
import MongoDriver.Sessions.Pruning
import MongoDriver.Sessions.Transaction
import MongoDriver.Sessions.ClientSession
import MongoDriver.Sessions.InFlight
import MongoDriver.Sessions.Exclusive
import MongoDriver.Sessions.Moves
import MongoDriver.Sessions.Sound
import MongoDriver.Sessions.FlightMoves
import MongoDriver.Sessions.Serial
import MongoDriver.Sessions.Numbers
import MongoDriver.Sessions.TransactionFrame
import MongoDriver.Sessions.WithTransaction
import MongoDriver.Sessions.Transitions
import MongoDriver.Sessions.Overlap
import MongoDriver.Sessions.Pinning
import MongoDriver.Sessions.Clearing
import MongoDriver.Sessions.PinLedger
import MongoDriver.Sessions.PinMetrics
import MongoDriver.Sessions.Dirty
import MongoDriver.Sessions.TransactionRuns
import MongoDriver.Bulk.Common
import MongoDriver.Bulk.Ledger
import MongoDriver.Bulk.Lossless
import MongoDriver.Bulk.InsertedIds
import MongoDriver.Bulk.BatchLimits
import MongoDriver.Bulk.Execution
import MongoDriver.Bulk.ResultIndices
import MongoDriver.Cursor.AbstractCursor
import MongoDriver.Cursor.Delivery
import MongoDriver.Cursor.ChangeStream
import MongoDriver.Cursor.ChangeBatches
import MongoDriver.Cursor.Resumption
import MongoDriver.Cursor.CursorStream
import MongoDriver.Cursor.Emission
import MongoDriver.Cursor.ResumeQueue
import MongoDriver.Cursor.ClosedStreams
import MongoDriver.Cursor.ResumeCallers
import MongoDriver.Cursor.ResumeOrder
import MongoDriver.Gridfs.Upload
import MongoDriver.Gridfs.Chunking
import MongoDriver.Gridfs.Settling
import MongoDriver.Gridfs.Download
import MongoDriver.Gridfs.RoundTrip
import MongoDriver.Bulk.Reporting
import MongoDriver.Bulk.Totals
import MongoDriver.Cursor.Iteration
import MongoDriver.Cursor.Mapping
import MongoDriver.Cursor.Stopping
import MongoDriver.Cursor.Rewinding
import MongoDriver.Gridfs.RangeReads
import MongoDriver.Gridfs.Integrity
import MongoDriver.Auth.Payloads
import MongoDriver.Auth.UserNames
import MongoDriver.Auth.Conversation
import MongoDriver.Options.Values
import MongoDriver.Options.Environment
import MongoDriver.Options.Credentials
import MongoDriver.Options.Descriptors
import MongoDriver.Options.ParseOptions
import MongoDriver.Options.Sources
import MongoDriver.Options.Setting
import MongoDriver.Options.Conversions
import MongoDriver.Options.Fields
import MongoDriver.Options.Resolved
import MongoDriver.Options.Precedence
import MongoDriver.Utils.EachAsync
import MongoDriver.Base.PropertyOrder
import MongoDriver.Base.Data
import MongoDriver.Operations.Sorting
import MongoDriver.Operations.IndexOptions
import MongoDriver.Base.Timers
import MongoDriver.Utils.InterruptibleInterval
import MongoDriver.Utils.IntervalSpacing
import MongoDriver.Sdam.ParentDomain
import MongoDriver.Sdam.SrvPoller
import MongoDriver.Options.SrvResolution
import MongoDriver.Options.Spellings
import MongoDriver.Options.ReadPreferences
import MongoDriver.Options.SameBut
import MongoDriver.Options.Mechanisms
import MongoDriver.Options.TLSConflicts
import MongoDriver.Base.Queue
import MongoDriver.Cmap.ByteQueue
import MongoDriver.Utils.Shuffle
import MongoDriver.Sessions.ReadTimes
import MongoDriver.Cmap.CommandMonitoring
import MongoDriver.Sdam.Monitor
import MongoDriver.Sdam.MonitorQuiet
import MongoDriver.Sdam.MonitorHeartbeats
import MongoDriver.Cmap.Established
import MongoDriver.Cmap.PoolEvents
import MongoDriver.Operations.ImplicitSessions
import MongoDriver.Bulk.FindOperators
import MongoDriver.Sdam.ErrorStorm
