import FluxTrade.Common.QueueCalls
import FluxTrade.Exchange.Cancels
import FluxTrade.Exchange.OutboundQueue
import FluxTrade.Exchange.PositionLedger
import FluxTrade.Exchange.Replicas
import FluxTrade.Exchange.ReportOwners
import FluxTrade.Exchange.Shutdown
import FluxTrade.Gateway.Accounts
import FluxTrade.Gateway.SessionTable
import FluxTrade.Kernel.Kernel
import FluxTrade.Matching.CancelOwner
import FluxTrade.Matching.ListModel
import FluxTrade.Matching.Outcome
import FluxTrade.Matching.PriorityOrder
import FluxTrade.Matching.Quantities
import FluxTrade.Matching.Records
import FluxTrade.Matching.ResetFresh
import FluxTrade.Matching.SelfTrade
import FluxTrade.Matching.TradedVolume
import FluxTrade.Matching.Undo
import FluxTrade.Persistence.Corruption
import FluxTrade.Persistence.SnapshotFlip
import FluxTrade.Persistence.SnapshotRecovery
import FluxTrade.Persistence.TornTail
import FluxTrade.Risk.Duplicates
import FluxTrade.Risk.ExactCost
import FluxTrade.Risk.PositionLimit
import FluxTrade.Risk.RateWindow
import FluxTrade.Risk.RejectCounters
