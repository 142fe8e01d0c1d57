import Bidding.Collections.Comparator
import Bidding.Collections.ControlBreak
import Bidding.Collections.Grid
import Bidding.Collections.GroupSums
import Bidding.Collections.Paging
import Bidding.Collections.Pool
import Bidding.Collections.Sort
import Bidding.Collections.Spans
import Bidding.Collections.StableSort
import Bidding.Collections.Tiling
import Bidding.Effects.Faults
import Bidding.Effects.Interleaving
import Bidding.Effects.Moves
import Bidding.Effects.Program
import Bidding.Effects.Records
import Bidding.Effects.Runs
import Bidding.Effects.Tickets
import Bidding.Effects.Unreliable
import Bidding.KeyValue.SortedSet
import Bidding.KeyValue.Store
import Bidding.Model.Accounts
import Bidding.Model.BidItemsCacheService
import Bidding.Model.BidderDao
import Bidding.Model.CometPusher
import Bidding.Model.CommonDao
import Bidding.Model.Controllers
import Bidding.Model.FileUpload
import Bidding.Model.MarketLists
import Bidding.Model.MarketPage
import Bidding.Model.RedisCacheService
import Bidding.Model.ReportViews
import Bidding.Model.Reports
import Bidding.Model.System
import Bidding.Model.Types
import Bidding.Model.WonList
import Bidding.Properties.AddedExtensions
import Bidding.Properties.Approvals
import Bidding.Properties.AutoBid
import Bidding.Properties.AutoBidBook
import Bidding.Properties.AutoBidRows
import Bidding.Properties.AutoBidWinner
import Bidding.Properties.CachedRanking
import Bidding.Properties.Cancellation
import Bidding.Properties.CategoryTotals
import Bidding.Properties.ClosedLots
import Bidding.Properties.ClosedRows
import Bidding.Properties.Countdown
import Bidding.Properties.Credentials
import Bidding.Properties.EarlyStart
import Bidding.Properties.EndMark
import Bidding.Properties.EndTime
import Bidding.Properties.Entitlement
import Bidding.Properties.Exports
import Bidding.Properties.ExtensionEffect
import Bidding.Properties.FirstLogin
import Bidding.Properties.GrandTotals
import Bidding.Properties.HalfWritten
import Bidding.Properties.HonouredExtension
import Bidding.Properties.LeasedConnections
import Bidding.Properties.Lifecycle
import Bidding.Properties.ListPartition
import Bidding.Properties.LivePush
import Bidding.Properties.MarketCountdown
import Bidding.Properties.MarketList
import Bidding.Properties.ObserverClosed
import Bidding.Properties.OnSaleOnce
import Bidding.Properties.Opening
import Bidding.Properties.OpeningCharge
import Bidding.Properties.PageWindows
import Bidding.Properties.Partition
import Bidding.Properties.PublishedPrice
import Bidding.Properties.Queue
import Bidding.Properties.RankOrder
import Bidding.Properties.RejectedStart
import Bidding.Properties.ReportGroups
import Bidding.Properties.RoundTrip
import Bidding.Properties.RunningAuction
import Bidding.Properties.SaleEnds
import Bidding.Properties.SalesPrices
import Bidding.Properties.ShiftedCountdowns
import Bidding.Properties.Standings
import Bidding.Properties.Summary2
import Bidding.Properties.TickFaults
import Bidding.Properties.TransientFailures
import Bidding.Properties.Upload
import Bidding.Properties.UploadRuns
import Bidding.Properties.Winners
import Bidding.Properties.WonPdf
import Bidding.Sale.Abstract
import Bidding.Sale.Activities
import Bidding.Sale.ExtensionRace
import Bidding.Sale.FailingCalls
import Bidding.Sale.FaultyTick
import Bidding.Sale.LotLedger
import Bidding.Sale.LotSteps
import Bidding.Sale.RacingTick
import Bidding.Sale.Refinement
import Bidding.Sale.Requests
import Bidding.Sale.Scheduler
import Bidding.Sale.Snapshots
import Bidding.Sale.Start
import Bidding.Sale.Tick
import Bidding.Semantics.Admin
import Bidding.Semantics.AnyTick
import Bidding.Semantics.Bidders
import Bidding.Semantics.CacheReads
import Bidding.Semantics.CacheWrites
import Bidding.Semantics.Calls
import Bidding.Semantics.CompleteItems
import Bidding.Semantics.Connections
import Bidding.Semantics.Dao
import Bidding.Semantics.ExportRows
import Bidding.Semantics.Failures
import Bidding.Semantics.Fetching
import Bidding.Semantics.Footprint
import Bidding.Semantics.Loading
import Bidding.Semantics.MarketPages
import Bidding.Semantics.MarketRows
import Bidding.Semantics.Methods
import Bidding.Semantics.ReportRows
import Bidding.Semantics.Sequence
import Bidding.Semantics.Service
import Bidding.Semantics.SheetRows
