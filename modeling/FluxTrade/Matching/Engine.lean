import FluxTrade.Matching.OrderBook
import FluxTrade.Matching.TradeBuilder

/-!
# The matching engine

`MatchingEngine` as the source computes it. The source writes the crossing
loops twice, once for each side; here the side of the order selects the side it
trades against and the direction of the price test. Every reading of the clock
is an input. The loops carry a fuel bound, and each match is logged with the
book it was applied to, so that statements can speak of the calls made inside a
submission.
-/

namespace FluxTrade

/-- `MatchingStatus`, the values that the engine returns. -/
inductive MatchingStatus where
  | success
  | partiallyFilled
  | filled
  | expired
  deriving DecidableEq, Inhabited

/-- `MatchingResult`. -/
structure MatchingResult where
  status : MatchingStatus
  tradesGenerated : UInt32
  deriving DecidableEq, Inhabited

/-- `MatchingStatistics`. -/
structure MatchingStatistics where
  ordersReceived : UInt64 := 0
  ordersMatched : UInt64 := 0
  ordersCancelled : UInt64 := 0
  ordersRejected : UInt64 := 0
  tradesExecuted : UInt64 := 0
  sharesExecuted : UInt64 := 0
  totalTradedVolume : UInt64 := 0
  totalLatencyNs : UInt64 := 0
  maxLatencyNs : UInt64 := 0
  bucketUnder100ns : UInt64 := 0
  bucket100To250ns : UInt64 := 0
  bucket250To500ns : UInt64 := 0
  bucket500nsTo1us : UInt64 := 0
  bucket1usTo5us : UInt64 := 0
  bucketOver5us : UInt64 := 0
  deriving DecidableEq, Inhabited

/-- `record_latency`. -/
def MatchingStatistics.recordLatency (stats : MatchingStatistics) (ns : UInt64) :
    MatchingStatistics :=
  let stats := { stats with
    totalLatencyNs := stats.totalLatencyNs + ns
    maxLatencyNs := if stats.maxLatencyNs < ns then ns else stats.maxLatencyNs }
  if ns < 100 then { stats with bucketUnder100ns := stats.bucketUnder100ns + 1 }
  else if ns < 250 then { stats with bucket100To250ns := stats.bucket100To250ns + 1 }
  else if ns < 500 then { stats with bucket250To500ns := stats.bucket250To500ns + 1 }
  else if ns < 1000 then { stats with bucket500nsTo1us := stats.bucket500nsTo1us + 1 }
  else if ns < 5000 then { stats with bucket1usTo5us := stats.bucket1usTo5us + 1 }
  else { stats with bucketOver5us := stats.bucketOver5us + 1 }

/-- The statistics of one match. -/
def MatchingStatistics.recordMatch (stats : MatchingStatistics) (qty : Quantity) (price : Price) :
    MatchingStatistics :=
  { stats with
    tradesExecuted := stats.tradesExecuted + 1
    sharesExecuted := stats.sharesExecuted + qty
    totalTradedVolume := stats.totalTradedVolume + qty * price.toUInt64 }

/-- `MatchingEngine`. -/
structure MatchingEngine where
  book : LimitOrderBook
  stats : MatchingStatistics
  tradeSeq : UInt64
  execSeq : UInt64

/-- The readings of `Clock::now_steady` in one call. -/
structure ClockReadings where
  start : UInt64
  now : UInt64
  finish : UInt64
  deriving DecidableEq, Inhabited

/-- A match together with the order slot and the book that `fill_order` was called with. -/
structure MatchCall where
  record : Match
  maker : Nat
  book : LimitOrderBook

/-- Variables of a running `submit_order`. -/
structure Crossing where
  book : LimitOrderBook
  ctx : ExecutionContext
  stats : MatchingStatistics
  tradeSeq : UInt64
  execSeq : UInt64
  remaining : Quantity
  tradesGenerated : UInt32
  /-- Matches so far, the first one first. -/
  calls : List MatchCall

/-- `std::min` of the two open quantities. -/
def matchQty (taker maker : Quantity) : Quantity := if maker < taker then maker else taker

/-- A price at which the order trades: a limit order stops at the first worse level. -/
def Order.accepts (order : Order) (price : Price) : Prop :=
  ¬(order.type = .limit ∧ order.side.opposite.Better order.price price)
  deriving Decidable

namespace Crossing

/-- The match against one resting order of a level. -/
def matchOf (crossing : Crossing) (timestamp : UInt64) (level resting : Nat) : Match :=
  let maker := crossing.book.order resting
  let qty := matchQty crossing.remaining maker.remainingQty
  { tradeSeq := crossing.tradeSeq
    execSeqTaker := crossing.execSeq
    execSeqMaker := crossing.execSeq + 1
    resting := maker
    qty
    price := (crossing.book.level level).price
    remainingQtyTaker := crossing.remaining - qty
    remainingQtyMaker := maker.remainingQty - qty
    timestamp }

/-- The variables after a match that left the given book. -/
def record (crossing : Crossing) (order : Order) (m : Match) (maker : Nat)
    (book : LimitOrderBook) : Crossing where
  book
  ctx := TradeBuilder.buildMatch crossing.ctx order m
  stats := crossing.stats.recordMatch m.qty m.price
  tradeSeq := crossing.tradeSeq + 1
  execSeq := crossing.execSeq + 2
  remaining := m.remainingQtyTaker
  tradesGenerated := crossing.tradesGenerated + 1
  calls := crossing.calls ++ [⟨m, maker, crossing.book⟩]

/-- The body of the inner loop for a maker that the order may trade with. -/
def matchOne (crossing : Crossing) (order : Order) (timestamp : UInt64) (level resting : Nat) :
    Except Fault Crossing := do
  let m := crossing.matchOf timestamp level resting
  let book ← crossing.book.fillOrder resting m.qty
  .ok (crossing.record order m resting book)

/-- The inner loop: from a resting order along the saved `next` pointers. -/
def matchLevel (allow : Order → LiveOrder → Bool) (order : Order) (timestamp : UInt64)
    (level : Nat) : Nat → Option Nat → Crossing → Except Fault Crossing
  | _, none, crossing => .ok crossing
  | 0, some _, crossing => if crossing.remaining = 0 then .ok crossing else .error .outOfFuel
  | fuel + 1, some resting, crossing =>
    if crossing.remaining = 0 then .ok crossing
    else
      let next := (crossing.book.order resting).next
      if allow order (crossing.book.order resting) then do
        let crossing ← crossing.matchOne order timestamp level resting
        matchLevel allow order timestamp level fuel next crossing
      else matchLevel allow order timestamp level fuel next crossing

/-- The level that the outer loop enters next, if it does not end. -/
def nextLevel (crossing : Crossing) (order : Order) : Option Nat :=
  if crossing.remaining = 0 then none
  else
    match crossing.book.bestLevel order.side.opposite with
    | none => none
    | some level => if order.accepts (crossing.book.level level).price then some level else none

/-- The outer loop. -/
def cross (allow : Order → LiveOrder → Bool) (order : Order) (timestamp : UInt64) :
    Nat → Crossing → Except Fault Crossing
  | 0, crossing =>
    match crossing.nextLevel order with
    | none => .ok crossing
    | some _ => .error .outOfFuel
  | fuel + 1, crossing =>
    match crossing.nextLevel order with
    | none => .ok crossing
    | some level => do
      let crossing ← matchLevel allow order timestamp level orderCapacity
        (crossing.book.level level).orders.head crossing
      cross allow order timestamp fuel crossing

/-- What happens to the remainder: a limit order rests, a market order expires. -/
def settle (crossing : Crossing) (order : Order) (timestamp : UInt64) :
    Except Fault (Crossing × MatchingStatus) :=
  if crossing.remaining = 0 then
    let stats := { crossing.stats with ordersMatched := crossing.stats.ordersMatched + 1 }
    .ok ({ crossing with stats }, .filled)
  else
    match order.type with
    | .limit => do
      let (_, book) ← crossing.book.insert order order.seqNum
      let status := if crossing.remaining = order.qty then .success else .partiallyFilled
      .ok ({ crossing with book }, status)
    | .market =>
      let ctx := TradeBuilder.buildExpiration crossing.ctx crossing.execSeq order
        crossing.remaining timestamp
      .ok ({ crossing with ctx, execSeq := crossing.execSeq + 1 }, .expired)
    | .stop => .ok (crossing, .success)

end Crossing

/-- What a `submit_order` leaves behind. -/
structure Submission where
  engine : MatchingEngine
  ctx : ExecutionContext
  result : MatchingResult
  calls : List MatchCall

namespace MatchingEngine

/-- An engine as constructed. -/
def new (listener : Option (List BookEvent)) : MatchingEngine :=
  ⟨LimitOrderBook.new listener, {}, 1, 1⟩

/-- `can_self_trade`. -/
def canSelfTrade (_aggressive : Order) (_resting : LiveOrder) : Bool := true

/-- The variables of `submit_order` when its loops start: the order is acknowledged. -/
def beginSubmit (engine : MatchingEngine) (order : Order) (ctx : ExecutionContext)
    (timestamp : UInt64) : Crossing where
  book := engine.book
  ctx := TradeBuilder.buildAck ctx engine.execSeq order timestamp
  stats := { engine.stats with ordersReceived := engine.stats.ordersReceived + 1 }
  tradeSeq := engine.tradeSeq
  execSeq := engine.execSeq + 1
  remaining := order.qty
  tradesGenerated := 0
  calls := []

/-- `submit_order` under a self-trade rule and a bound on the levels entered. -/
def submitOrderWith (allow : Order → LiveOrder → Bool) (fuel : Nat) (engine : MatchingEngine)
    (order : Order) (ctx : ExecutionContext) (clock : ClockReadings) :
    Except Fault Submission := do
  let crossing ←
    Crossing.cross allow order clock.now fuel (engine.beginSubmit order ctx clock.now)
  let (crossing, status) ← crossing.settle order clock.now
  .ok
    { engine :=
        { book := crossing.book
          stats := crossing.stats.recordLatency (clock.finish - clock.start)
          tradeSeq := crossing.tradeSeq
          execSeq := crossing.execSeq }
      ctx := crossing.ctx
      result := ⟨status, crossing.tradesGenerated⟩
      calls := crossing.calls }

/-- `submit_order`. Every entered level is emptied or ends the loop, so the level pool bounds it. -/
def submitOrder (engine : MatchingEngine) (order : Order) (ctx : ExecutionContext)
    (clock : ClockReadings) : Except Fault Submission :=
  submitOrderWith canSelfTrade levelCapacity engine order ctx clock

/-- `cancel_order`. -/
def cancelOrder (engine : MatchingEngine) (orderId : OrderId) (clientId : ClientId)
    (accountId : AccountId) (symbolId : SymbolId) (ctx : ExecutionContext)
    (clock : ClockReadings) : Except Fault (Bool × MatchingEngine × ExecutionContext) :=
  match engine.book.findOrder orderId with
  | none =>
    let stats := { engine.stats with ordersRejected := engine.stats.ordersRejected + 1 }
    .ok (false, { engine with stats }, ctx)
  | some order => do
    let ctx := TradeBuilder.buildCancel ctx engine.execSeq (engine.book.order order) clientId
      accountId symbolId clock.now
    let (_, book) ← engine.book.cancel orderId
    let stats := { engine.stats with ordersCancelled := engine.stats.ordersCancelled + 1 }
    .ok (true,
      { engine with
        book
        stats := stats.recordLatency (clock.finish - clock.start)
        execSeq := engine.execSeq + 1 }, ctx)

/-- `modify_order`: the reading of the clock becomes the priority of an increased order. -/
def modifyOrder (engine : MatchingEngine) (orderId : OrderId) (newQty : Quantity)
    (clock : ClockReadings) : Except Fault (Bool × MatchingEngine) := do
  let (modified, book) ← engine.book.modifyQty orderId newQty clock.now
  let stats := engine.stats.recordLatency (clock.finish - clock.start)
  .ok (modified, { engine with book, stats })

/-- `reset`. -/
def reset (engine : MatchingEngine) : Except Fault MatchingEngine := do
  let book ← engine.book.clear
  .ok ⟨book, {}, 1, 1⟩

end MatchingEngine

end FluxTrade
