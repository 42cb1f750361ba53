import Zecd.Foundation.Runs
import Zecd.Foundation.Fallible
import Zecd.Send.Request
import Zecd.Send.Proposal
import Zecd.Send.Actor
import Zecd.Send.ReferenceWallet
import Zecd.Send.Steps
import Zecd.Send.DoubleSpend
import Zecd.Send.Retry
import Zecd.Send.Ladder
import Zecd.Sync.Matcher
import Zecd.Sync.Coverage
import Zecd.Sync.Chain
import Zecd.Sync.Engine
import Zecd.Sync.Download
import Zecd.Sync.Pass
import Zecd.Sync.SpendDiscovery
import Zecd.Poll.ListSinceBlock
import Zecd.Sync.Restore
import Zecd.Read.Balances
import Zecd.Read.Isolation
import Zecd.Read.ListingIsolation
import Zecd.Fleet.Layout
import Zecd.Fleet.Manager
import Zecd.Fleet.Names
import Zecd.Foundation.Keyed
import Zecd.Read.History
import Zecd.Read.Outputs
import Zecd.Read.Attribution
import Zecd.Read.Amounts
import Zecd.Read.Receipts
import Zecd.Control.Loop
import Zecd.Control.Unlock
import Zecd.Control.Halt
import Zecd.Enhance.Drain
import Zecd.Enhance.Watermark
import Zecd.Rpc.WaitForSync
import Zecd.Upstream.Hub
import Zecd.Upstream.Refusal
import Zecd.Upstream.Alone
import Zecd.Foundation.Bisect
import Zecd.Send.TxSize
import Zecd.Sync.Watch
import Zecd.Send.Ceilings
import Zecd.Send.Plans
import Zecd.Send.CeilingRuns
import Zecd.Send.WithinCeilings
import Zecd.Datadir.Migrate
import Zecd.Datadir.Resume
import Zecd.Fleet.Startup
import Zecd.Foundation.Lru
import Zecd.Upstream.ChainHub
import Zecd.Upstream.Generations
import Zecd.Upstream.Fanout
import Zecd.Upstream.TxCache
import Zecd.Foundation.Oldest
import Zecd.Rpc.Operations
import Zecd.Rpc.OperationRuns
import Zecd.Control.Pipeline
import Zecd.Control.Replies
import Zecd.Control.ShutdownDrain
import Zecd.Datadir.Bootstrap
import Zecd.Datadir.BootstrapRuns
import Zecd.Fleet.ShardPass
import Zecd.Rpc.Readiness
import Zecd.Send.MergeProposals
import Zecd.Send.MergeRounds
import Zecd.Fleet.Placement
import Zecd.Fleet.Lifetimes
import Zecd.Foundation.Checked
import Zecd.Send.BuiltSize
import Zecd.Send.CountCeilings
import Zecd.Foundation.Greedy
import Zecd.Send.TransparentSelection
import Zecd.Foundation.Decimal
import Zecd.Rpc.FixedPoint
import Zecd.Rpc.FixedPointDigits
import Zecd.Rpc.FixedPointExact
import Zecd.Sync.Rewind
import Zecd.Foundation.Resume
import Zecd.Sync.LoadShed
import Zecd.Sync.Matched
import Zecd.Foundation.Sql
import Zecd.Read.Expiry
import Zecd.Read.SpendWatch
import Zecd.Foundation.Paging
import Zecd.Rpc.Pagination
import Zecd.Foundation.Grouping
import Zecd.Read.AddressKeys
import Zecd.Read.ReceivedBy
import Zecd.Read.ReceivedIndex
import Zecd.Read.ReceivedList
import Zecd.Foundation.Splitting
import Zecd.Upstream.AddressQuery
import Zecd.Fleet.PlacementExact
import Zecd.Foundation.Text
import Zecd.Upstream.Socks
import Zecd.Upstream.Staleness
import Zecd.Enhance.Progress
import Zecd.Send.Broadcast
import Zecd.Enhance.DrainRuns
import Zecd.Sync.Issuance
import Zecd.Foundation.Hex
import Zecd.Rpc.WaitForBlock
import Zecd.Foundation.KeyDiff
import Zecd.Foundation.KeyedText
import Zecd.Config.Settings
import Zecd.Config.Endpoint
import Zecd.Config.Show
import Zecd.Config.Reading
import Zecd.Config.Reload
import Zecd.Config.Quoted
import Zecd.Config.File
import Zecd.Config.Tokens
import Zecd.Config.Resolve
import Zecd.Config.Rewritten
import Zecd.Config.Resolved
import Zecd.Config.Reread
import Zecd.Config.Toml
import Zecd.Config.LineToml
import Zecd.Config.RoundTrip
import Zecd.Foundation.Tiling
import Zecd.Foundation.Recency
import Zecd.Sync.Prefetch
import Zecd.Upstream.LruMap
import Zecd.Foundation.Rounds
import Zecd.Foundation.Relay
import Zecd.Upstream.BlockReader
import Zecd.Upstream.MempoolPoll
import Zecd.Datadir.Lifecycle
import Zecd.Datadir.Binding
import Zecd.Datadir.LifecycleRuns
import Zecd.Datadir.Rescans
import Zecd.Rpc.ServeDrain
import Zecd.Rpc.AmountText
import Zecd.Upstream.Backends
