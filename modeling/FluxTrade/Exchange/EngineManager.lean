import FluxTrade.Exchange.Messages
import FluxTrade.Matching.EngineRun
import FluxTrade.Persistence.Journal
import FluxTrade.Risk.RiskEngine

/-!
# The engine of one symbol

`EngineManager::process_command` validates a command, journals an accepted one,
lets the matching engine execute it and hands every execution report to the
outbound queue and back to the risk engine. The reports of a match both carry
the side of the command, and the maker's report carries account 0.
-/

namespace FluxTrade

/-- `EngineManager`. The execution context is emptied before every use and no part of the state. -/
structure EngineManager where
  symbolId : SymbolId
  matchingEngine : MatchingEngine
  riskEngine : RiskEngine
  journalQueue : JournalQueue

/-- What the processing of a command reads besides the manager: the halts in force, the clocks, and
the unnamed byte of the command in memory. -/
structure CommandEnv where
  halts : Halts
  riskClock : RiskClock
  exchangeTime : UInt64
  engineClock : ClockReadings
  rejectTime : UInt64
  unnamed : UInt8

/-- `Price::from_double(100.00)`. -/
def basePrice : Price := 10000000000

/-- The risk context of a command. -/
def OrderCommand.riskContext (command : OrderCommand) : RiskContext where
  orderId := command.clientOrderId
  price := command.price
  qty := command.qty
  timestamp := command.timestamp
  referencePrice := basePrice
  clientOrderId := command.clientOrderId
  symbolId := command.symbolId
  clientId := 1
  accountId := command.accountId
  side := command.side
  type := command.orderType

/-- The report of a command that risk has rejected. -/
def OrderCommand.rejectReport (command : OrderCommand) (reason : RejectReason)
    (timestamp : UInt64) : OutboundReport :=
  ⟨command.connId, .reject ⟨⟨command.sequence, timestamp⟩, command.clientOrderId,
    command.accountId, reason.code⟩⟩

/-- The packet of an execution report. -/
def ExecutionReport.outbound (report : ExecutionReport) (connId : ConnId) (side : Side) :
    OutboundReport :=
  ⟨connId, .execution
    { header := ⟨report.execId, report.timestamp⟩
      orderId := report.orderId
      clientOrderId := report.orderId
      symbolId := report.symbolId
      accountId := report.accountId
      priceTicks := report.price.toUInt64
      qtyUnits := report.lastQty + report.remainingQty
      filledQty := report.lastQty
      remainingQty := report.remainingQty
      side := match side with
        | .buy => 0
        | .sell => 1
      status := report.execType.code }⟩

/-- What an execution report tells the risk engine. -/
def RiskEngine.absorb (engine : RiskEngine) (side : Side) (report : ExecutionReport) :
    RiskEngine :=
  match report.execType with
  | .trade =>
    engine.updateOnFill report.accountId report.symbolId side report.lastQty
      report.price.toUInt64
  | .cancel => engine.updateOnCancel report.accountId (orderCost report.price report.lastQty)
  | .new => engine
  | .reject => engine

/-- What processing a command leaves: the manager, the reports pushed outbound and the matches
made. -/
structure Processed where
  manager : EngineManager
  outbound : List OutboundReport
  calls : List MatchCall

namespace EngineManager

/-- `EngineManager` as constructed. -/
def new (symbolId : SymbolId) (round : ℚ → ℚ) : EngineManager :=
  ⟨symbolId, .new none, .new round, []⟩

/-- `dispatch_reports`, after the matching engine has run. -/
def dispatchReports (manager : EngineManager) (engine : MatchingEngine) (connId : ConnId)
    (side : Side) (reports : List ExecutionReport) (calls : List MatchCall) : Processed where
  manager := { manager with
    matchingEngine := engine
    riskEngine := reports.foldl (fun risk report => risk.absorb side report) manager.riskEngine }
  outbound := reports.map fun report => report.outbound connId side
  calls := calls

/-- The journal entry of an accepted command is queued, if there is room. -/
def journal (manager : EngineManager) (env : CommandEnv) (command : OrderCommand) :
    EngineManager :=
  { manager with
    journalQueue := (MemoryJournal.append manager.journalQueue command.sequence command.timestamp
      command.type.code.toUInt16 ((OrderCommand.image env.unnamed).encode command)).2 }

/-- The execution of an accepted command. A `ReplaceOrder` has none. -/
def execute (manager : EngineManager) (env : CommandEnv) (command : OrderCommand) :
    Except Fault Processed :=
  match command.type with
  | .newOrder => do
    let submission ← manager.matchingEngine.submitOrder (command.toOrder env.exchangeTime) .empty
      env.engineClock
    .ok (manager.dispatchReports submission.engine command.connId command.side
      submission.ctx.reports submission.calls)
  | .cancelOrder => do
    let (_, engine, ctx) ← manager.matchingEngine.cancelOrder command.origClientOrderId 1
      command.accountId command.symbolId .empty env.engineClock
    .ok (manager.dispatchReports engine command.connId .buy ctx.reports [])
  | .replaceOrder => .ok ⟨manager, [], []⟩

/-- The validation that `process_command` starts with. -/
def validate (manager : EngineManager) (env : CommandEnv) (command : OrderCommand) : Validation :=
  manager.riskEngine.validate env.halts env.riskClock command.riskContext ⟨[]⟩

/-- `EngineManager::process_command`. -/
def processCommand (manager : EngineManager) (env : CommandEnv) (command : OrderCommand) :
    Except Fault Processed :=
  let validation := manager.validate env command
  let manager := { manager with riskEngine := validation.engine }
  match validation.result with
  | .ok _ => (manager.journal env command).execute env command
  | .error reason => .ok ⟨manager, [command.rejectReport reason env.rejectTime], []⟩

/-- The command passes the risk checks. -/
def Accepts (manager : EngineManager) (env : CommandEnv) (command : OrderCommand) : Prop :=
  (manager.validate env command).result.isOk = true
  deriving Decidable

end EngineManager

end FluxTrade
