import FluxTrade.Domain

/-!
# Execution records

`ExecutionContext` holds the trades and reports of one call in two fixed
arrays; a record that no longer fits is dropped. `TradeBuilder` fills in the
records. The reports of a match name the aggressive order's client and account
on the taker's side, and client 0 and account 0 on the maker's.
-/

namespace FluxTrade

/-- `ExecutionContext`: the filled part of its two arrays. -/
structure ExecutionContext where
  trades : List Trade
  reports : List ExecutionReport
  deriving DecidableEq, Inhabited

namespace ExecutionContext

/-- `MAX_TRADES`. -/
def maxTrades : Nat := 128

/-- `MAX_REPORTS`. -/
def maxReports : Nat := 256

/-- A context after `reset`. -/
def empty : ExecutionContext := ⟨[], []⟩

/-- `add_trade`, with the fields its caller writes. -/
def addTrade (ctx : ExecutionContext) (trade : Trade) : ExecutionContext :=
  if maxTrades ≤ ctx.trades.length then ctx else { ctx with trades := ctx.trades ++ [trade] }

/-- `add_report`, with the fields its caller writes. -/
def addReport (ctx : ExecutionContext) (report : ExecutionReport) : ExecutionContext :=
  if maxReports ≤ ctx.reports.length then ctx else { ctx with reports := ctx.reports ++ [report] }

/-- A trade is no report. -/
@[simp]
theorem addTrade_reports (ctx : ExecutionContext) (trade : Trade) :
    (ctx.addTrade trade).reports = ctx.reports := by
  unfold addTrade
  split <;> rfl

/-- A report is no trade. -/
@[simp]
theorem addReport_trades (ctx : ExecutionContext) (report : ExecutionReport) :
    (ctx.addReport report).trades = ctx.trades := by
  unfold addReport
  split <;> rfl

/-- A trade is kept while there is room. -/
theorem addTrade_trades {ctx : ExecutionContext} (room : ctx.trades.length < maxTrades)
    (trade : Trade) : (ctx.addTrade trade).trades = ctx.trades ++ [trade] := by
  simp [addTrade, Nat.not_le.mpr room]

/-- A report is kept while there is room. -/
theorem addReport_reports {ctx : ExecutionContext} (room : ctx.reports.length < maxReports)
    (report : ExecutionReport) : (ctx.addReport report).reports = ctx.reports ++ [report] := by
  simp [addReport, Nat.not_le.mpr room]

/-- The array of reports is never written past its end. -/
theorem addReport_length_le {ctx : ExecutionContext} (fits : ctx.reports.length ≤ maxReports)
    (report : ExecutionReport) : (ctx.addReport report).reports.length ≤ maxReports := by
  by_cases full : maxReports ≤ ctx.reports.length
  · rw [addReport, if_pos full]
    exact fits
  · rw [addReport_reports (Nat.lt_of_not_le full), List.length_append, List.length_singleton]
    omega

end ExecutionContext

/-- One match: the arguments of `TradeBuilder::build_match` besides context and order. -/
structure Match where
  tradeSeq : UInt64
  execSeqTaker : UInt64
  execSeqMaker : UInt64
  /-- The maker before the fill. -/
  resting : LiveOrder
  qty : Quantity
  price : Price
  remainingQtyTaker : Quantity
  remainingQtyMaker : Quantity
  timestamp : UInt64
  deriving DecidableEq, Inhabited

namespace TradeBuilder

/-- The trade of a match. -/
def matchTrade (aggressive : Order) (m : Match) : Trade where
  tradeId := m.tradeSeq
  buyOrderId := if aggressive.side = .buy then aggressive.orderId else m.resting.key.orderId
  sellOrderId := if aggressive.side = .buy then m.resting.key.orderId else aggressive.orderId
  price := m.price
  qty := m.qty
  timestamp := m.timestamp
  symbolId := aggressive.symbolId

/-- The taker's report of a match. -/
def takerReport (aggressive : Order) (m : Match) : ExecutionReport where
  execId := m.execSeqTaker
  orderId := aggressive.orderId
  price := m.price
  lastQty := m.qty
  remainingQty := m.remainingQtyTaker
  timestamp := m.timestamp
  clientId := aggressive.clientId
  accountId := aggressive.accountId
  symbolId := aggressive.symbolId
  rejectReason := .none
  execType := .trade

/-- The maker's report of a match. -/
def makerReport (m : Match) : ExecutionReport where
  execId := m.execSeqMaker
  orderId := m.resting.key.orderId
  price := m.price
  lastQty := m.qty
  remainingQty := m.remainingQtyMaker
  timestamp := m.timestamp
  clientId := 0
  accountId := 0
  symbolId := m.resting.key.symbolId
  rejectReason := .none
  execType := .trade

/-- `build_match`. -/
def buildMatch (ctx : ExecutionContext) (aggressive : Order) (m : Match) : ExecutionContext :=
  ((ctx.addTrade (matchTrade aggressive m)).addReport (takerReport aggressive m)).addReport
    (makerReport m)

/-- `build_ack`. -/
def buildAck (ctx : ExecutionContext) (execSeq : UInt64) (order : Order) (timestamp : UInt64) :
    ExecutionContext :=
  ctx.addReport
    { execId := execSeq, orderId := order.orderId, price := order.price, lastQty := 0
      remainingQty := order.qty, timestamp, clientId := order.clientId
      accountId := order.accountId, symbolId := order.symbolId, rejectReason := .none
      execType := .new }

/-- `build_cancel`: the report shows neither an executed nor an open quantity. -/
def buildCancel (ctx : ExecutionContext) (execSeq : UInt64) (order : LiveOrder)
    (clientId : ClientId) (accountId : AccountId) (symbolId : SymbolId) (timestamp : UInt64) :
    ExecutionContext :=
  ctx.addReport
    { execId := execSeq, orderId := order.key.orderId, price := order.price, lastQty := 0
      remainingQty := 0, timestamp, clientId, accountId, symbolId, rejectReason := .none
      execType := .cancel }

/-- `build_expiration`: the expired quantity is an argument that the report does not show. -/
def buildExpiration (ctx : ExecutionContext) (execSeq : UInt64) (order : Order)
    (_expiredQty : Quantity) (timestamp : UInt64) : ExecutionContext :=
  ctx.addReport
    { execId := execSeq, orderId := order.orderId, price := order.price, lastQty := 0
      remainingQty := 0, timestamp, clientId := order.clientId, accountId := order.accountId
      symbolId := order.symbolId, rejectReason := .none, execType := .cancel }

end TradeBuilder

end FluxTrade
