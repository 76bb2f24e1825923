import Rustmate.Analyzer.Http
import Rustmate.Analyzer.HttpStart
import Rustmate.Api.Core
import Rustmate.Api.DeltaLog
import Rustmate.Api.Figures
import Rustmate.Api.HideRules
import Rustmate.Api.Overview
import Rustmate.Api.ProfileSet
import Rustmate.Api.StreamId
import Rustmate.Capture.Alone
import Rustmate.Capture.Closure
import Rustmate.Capture.Populations
import Rustmate.Capture.Stores
import Rustmate.Content.Account
import Rustmate.Content.Alone
import Rustmate.Content.Chained
import Rustmate.Content.Intact
import Rustmate.Content.Record
import Rustmate.Content.Segments
import Rustmate.Content.Store
import Rustmate.Content.Suffix
import Rustmate.Decode.Fragments
import Rustmate.Events.Address
import Rustmate.Events.AddressRoundTrip
import Rustmate.Events.Encode
import Rustmate.Events.Hex
import Rustmate.Events.Value
import Rustmate.Flow.Alone
import Rustmate.Flow.Budget
import Rustmate.Flow.Buffer
import Rustmate.Flow.Bytes
import Rustmate.Flow.Canonical
import Rustmate.Flow.Direction
import Rustmate.Flow.Entries
import Rustmate.Flow.Exact
import Rustmate.Flow.Finish
import Rustmate.Flow.Key
import Rustmate.Flow.Kinds
import Rustmate.Flow.Placed
import Rustmate.Flow.Population
import Rustmate.Flow.Run
import Rustmate.Flow.Stale
import Rustmate.Flow.Steps
import Rustmate.Flow.Table
import Rustmate.Inventory.Alone
import Rustmate.Inventory.Detection
import Rustmate.Inventory.DnsSide
import Rustmate.Inventory.Population
import Rustmate.Inventory.Records
import Rustmate.Inventory.Store
import Rustmate.Inventory.Summaries
import Rustmate.Lib.Absorb
import Rustmate.Lib.Canonical
import Rustmate.Lib.Digits
import Rustmate.Lib.Evictions
import Rustmate.Lib.Fifo
import Rustmate.Lib.Framing
import Rustmate.Lib.Handover
import Rustmate.Lib.InvertedIndex
import Rustmate.Lib.Journal
import Rustmate.Lib.Keyed
import Rustmate.Lib.Largest
import Rustmate.Lib.Lru
import Rustmate.Lib.Numbering
import Rustmate.Lib.Occurrences
import Rustmate.Lib.Paging
import Rustmate.Lib.Pool.Accounts
import Rustmate.Lib.Pool.Balance
import Rustmate.Lib.Pool.Basic
import Rustmate.Lib.Pool.Keeps
import Rustmate.Lib.Pool.Ledger
import Rustmate.Lib.Pool.Moves
import Rustmate.Lib.Pool.Orderly
import Rustmate.Lib.Pool.OrderlyRun
import Rustmate.Lib.Pool.Progress
import Rustmate.Lib.Projection
import Rustmate.Lib.Quota
import Rustmate.Lib.Reader
import Rustmate.Lib.Reassembly
import Rustmate.Lib.ReassemblyOrder
import Rustmate.Lib.ReassemblyRun
import Rustmate.Lib.Records
import Rustmate.Lib.Serial
import Rustmate.Lib.Sextets
import Rustmate.Lib.Shares
import Rustmate.Lib.Since
import Rustmate.Lib.Slots
import Rustmate.Lib.Table
import Rustmate.Lib.Tiles
import Rustmate.Machine
import Rustmate.Message.Dns
import Rustmate.Message.DnsInline
import Rustmate.Message.DnsName
import Rustmate.Message.DnsPath
import Rustmate.Message.DnsRdata
import Rustmate.Message.DnsRoundTrip
import Rustmate.Message.DnsState
import Rustmate.Message.DnsTotal
import Rustmate.Message.DnsWire
import Rustmate.Message.Framed
import Rustmate.Message.Http1
import Rustmate.Message.HttpBody
import Rustmate.Message.HttpCuts
import Rustmate.Message.HttpFramed
import Rustmate.Message.HttpFraming
import Rustmate.Message.HttpHead
import Rustmate.Message.HttpRefine
import Rustmate.Message.HttpRoundTrip
import Rustmate.Message.HttpRun
import Rustmate.Message.HttpSearch
import Rustmate.Message.HttpStored
import Rustmate.Message.HttpTurns
import Rustmate.Message.Lines
import Rustmate.Message.Numbers
import Rustmate.Message.Offsets
import Rustmate.Message.RecordRun
import Rustmate.Message.RecordState
import Rustmate.Message.Store
import Rustmate.Message.StoreRun
import Rustmate.Message.Text
import Rustmate.Message.Tls
import Rustmate.Message.TlsTotal
import Rustmate.Message.TlsWire
import Rustmate.Message.Types
import Rustmate.Message.WebSocket
import Rustmate.Message.WebSocketWire
import Rustmate.Message.Wire
import Rustmate.Packet
import Rustmate.Parser.Analyzer
import Rustmate.Parser.Bounded
import Rustmate.Parser.Framed
import Rustmate.Parser.Identifiers
import Rustmate.Parser.Layer
import Rustmate.Parser.Ranges
import Rustmate.Parser.States
import Rustmate.Pattern.Budgets
import Rustmate.Pattern.Compile
import Rustmate.Pattern.Engine
import Rustmate.Pattern.Hex
import Rustmate.Pattern.Meets
import Rustmate.Pattern.Once
import Rustmate.Pattern.Scan
import Rustmate.Pattern.Told
import Rustmate.Pipeline.Ranges
import Rustmate.Pipeline.Stats
import Rustmate.Shard.Affinity
import Rustmate.Shard.Balance
import Rustmate.Shard.Coordinator
import Rustmate.Shard.Metrics
import Rustmate.Shard.Offload
import Rustmate.Shard.OffloadRun
import Rustmate.Shard.Placed
import Rustmate.Shard.Pool
import Rustmate.Shard.PoolEnd
import Rustmate.Shard.PoolFigures
import Rustmate.Shard.PoolKept
import Rustmate.Shard.PoolRefines
import Rustmate.Shard.PoolRun
import Rustmate.Shard.PoolWork
import Rustmate.Shard.Queues
import Rustmate.Shard.RawFragments
import Rustmate.Shard.RawRoute
import Rustmate.Shard.Routing
import Rustmate.Shard.Runtime
import Rustmate.Shard.RuntimeStats
import Rustmate.Shard.Summary
import Rustmate.Shard.Topology
import Rustmate.Shard.Transparent
import Rustmate.Shard.Workers
import Rustmate.Slice.Exact
import Rustmate.Slice.Reader
import Rustmate.Slice.Truth
import Rustmate.Transform.Cap
import Rustmate.Transform.ChunkList
import Rustmate.Transform.Chunked
import Rustmate.Transform.ChunkedWire
import Rustmate.Transform.Exact
import Rustmate.Transform.Http
import Rustmate.Transform.Inflate
import Rustmate.Transform.Outcome
import Rustmate.Transform.Plan
import Rustmate.Transform.UrlDecode
import Rustmate.Transform.WebSocketDeflate
import Rustmate.Transform.WebSocketParser
import Rustmate.View.Indexes
import Rustmate.View.Marks
import Rustmate.View.Merge
import Rustmate.View.Paging
import Rustmate.View.Reading
import Rustmate.View.Retained
import Rustmate.View.State
import Rustmate.View.Types
