import FluxTrade.Matching.EngineRun
import FluxTrade.Matching.Undated

/-!
# Matching without the clock

The engine reads the clock for the timestamps of its trades and reports, for its
latency statistics and for the priority of an increased order. `untimed` forgets
exactly these. What a call does to an engine without them does not depend on
them, so two runs of the same calls differ in nothing else, whatever clocks they
read.
-/

namespace FluxTrade

open Execution ExecutionContext LimitOrderBook

/-! ## What the clock decides -/

/-- A trade without its timestamp. -/
def Trade.untimed (trade : Trade) : Trade := { trade with timestamp := 0 }

/-- A report without its timestamp. -/
def ExecutionReport.untimed (report : ExecutionReport) : ExecutionReport :=
  { report with timestamp := 0 }

/-- The trades and reports of a call without their timestamps. -/
def ExecutionContext.untimed (ctx : ExecutionContext) : ExecutionContext :=
  ⟨ctx.trades.map Trade.untimed, ctx.reports.map ExecutionReport.untimed⟩

/-- Statistics without the latencies. -/
def MatchingStatistics.untimed (stats : MatchingStatistics) : MatchingStatistics :=
  { stats with
    totalLatencyNs := 0
    maxLatencyNs := 0
    bucketUnder100ns := 0
    bucket100To250ns := 0
    bucket250To500ns := 0
    bucket500nsTo1us := 0
    bucket1usTo5us := 0
    bucketOver5us := 0 }

/-- An engine without the latencies and without the priorities of its resting orders. -/
def MatchingEngine.untimed (engine : MatchingEngine) : MatchingEngine :=
  { engine with book := engine.book.undated, stats := engine.stats.untimed }

/-- A match without its timestamp and the maker's priority. -/
def Match.untimed (m : Match) : Match := { m with resting := m.resting.undated, timestamp := 0 }

/-- The variables of a running submission without what the clock decides. -/
def Crossing.untimed (crossing : Crossing) : Crossing :=
  { crossing with
    book := crossing.book.undated
    ctx := crossing.ctx.untimed
    stats := crossing.stats.untimed
    calls := crossing.calls.map fun call => ⟨call.record.untimed, call.maker, call.book.undated⟩ }

/-- What a submission returns and leaves behind, without what the clock decides. -/
def Submission.untimed (submission : Submission) :
    MatchingResult × MatchingEngine × ExecutionContext :=
  (submission.result, submission.engine.untimed, submission.ctx.untimed)

/-- An order without the number that becomes its priority. -/
def Order.unsequenced (order : Order) : Order := { order with seqNum := 0 }

/-- A clock that stands still. -/
def ClockReadings.stopped : ClockReadings := ⟨0, 0, 0⟩

/-- Forgetting twice is forgetting. -/
theorem ExecutionContext.untimed_untimed (ctx : ExecutionContext) :
    ctx.untimed.untimed = ctx.untimed := by
  simp [untimed, Trade.untimed, ExecutionReport.untimed]

/-- Latencies are forgotten. -/
theorem MatchingStatistics.recordLatency_untimed (stats : MatchingStatistics) (ns : UInt64) :
    (stats.recordLatency ns).untimed = stats.untimed := by
  unfold recordLatency
  dsimp only
  split_ifs <;> rfl

/-! ## Records -/

namespace ExecutionContext

variable (ctx : ExecutionContext)

/-- A trade is added alike. -/
theorem addTrade_untimed (trade : Trade) :
    ctx.untimed.addTrade trade.untimed = (ctx.addTrade trade).untimed := by
  unfold addTrade untimed
  rw [List.length_map]
  split
  · rfl
  · simp

/-- So is a report. -/
theorem addReport_untimed (report : ExecutionReport) :
    ctx.untimed.addReport report.untimed = (ctx.addReport report).untimed := by
  unfold addReport untimed
  rw [List.length_map]
  split
  · rfl
  · simp

end ExecutionContext

namespace TradeBuilder

variable (ctx : ExecutionContext) (order : Order)

/-- A match is reported alike. -/
theorem buildMatch_untimed (m : Match) :
    buildMatch ctx.untimed order.unsequenced m.untimed = (buildMatch ctx order m).untimed := by
  have trade : matchTrade order.unsequenced m.untimed = (matchTrade order m).untimed := rfl
  have taker : takerReport order.unsequenced m.untimed = (takerReport order m).untimed := rfl
  have maker : makerReport m.untimed = (makerReport m).untimed := rfl
  unfold buildMatch
  rw [trade, taker, maker, ctx.addTrade_untimed, addReport_untimed,
    addReport_untimed]

/-- So is an acceptance. -/
theorem buildAck_untimed (execSeq timestamp : UInt64) :
    buildAck ctx.untimed execSeq order.unsequenced 0 =
      (buildAck ctx execSeq order timestamp).untimed := by
  unfold buildAck
  rw [← ctx.addReport_untimed]
  rfl

/-- So is a cancellation. -/
theorem buildCancel_untimed (execSeq : UInt64) (node : LiveOrder) (clientId : ClientId)
    (accountId : AccountId) (symbolId : SymbolId) (timestamp : UInt64) :
    buildCancel ctx.untimed execSeq node.undated clientId accountId symbolId 0 =
      (buildCancel ctx execSeq node clientId accountId symbolId timestamp).untimed := by
  unfold buildCancel
  rw [← ctx.addReport_untimed]
  rfl

/-- So is an expiry. -/
theorem buildExpiration_untimed (execSeq : UInt64) (expiredQty : Quantity) (timestamp : UInt64) :
    buildExpiration ctx.untimed execSeq order.unsequenced expiredQty 0 =
      (buildExpiration ctx execSeq order expiredQty timestamp).untimed := by
  unfold buildExpiration
  rw [← ctx.addReport_untimed]
  rfl

end TradeBuilder

/-! ## The loops -/

namespace Crossing

variable (crossing : Crossing) (order : Order) (timestamp : UInt64)

/-- A match is recorded alike. -/
theorem record_untimed (m : Match) (maker : Nat) (book : LimitOrderBook) :
    crossing.untimed.record order.unsequenced m.untimed maker book.undated =
      (crossing.record order m maker book).untimed := by
  have built := TradeBuilder.buildMatch_untimed crossing.ctx order m
  unfold record untimed
  simp only [List.map_append, List.map_cons, List.map_nil]
  rw [built]
  rfl

/-- One match alike. -/
theorem matchOne_untimed (level resting : Nat) :
    crossing.untimed.matchOne order.unsequenced 0 level resting =
      (crossing.matchOne order timestamp level resting).map untimed := by
  have filled := crossing.book.undated_fillOrder resting
    (crossing.matchOf timestamp level resting).qty
  unfold matchOne
  refine (congrArg (Except.bind · _) filled).trans (bind_image ?_ _)
  intro book
  exact congrArg Except.ok
    (crossing.record_untimed order (crossing.matchOf timestamp level resting) resting book)

variable {allow : Order → LiveOrder → Bool}
  (blind : ∀ order node,
    allow (Order.unsequenced order) (LiveOrder.undated node) = allow order node)

include blind

/-- The inner loop alike. -/
theorem matchLevel_untimed (level fuel : Nat) (start : Option Nat) :
    matchLevel allow order.unsequenced 0 level fuel start crossing.untimed =
      (matchLevel allow order timestamp level fuel start crossing).map untimed := by
  induction fuel generalizing start crossing with
  | zero =>
    cases start with
    | none => rfl
    | some resting =>
      unfold matchLevel
      change (if crossing.remaining = 0 then _ else _) = _
      split <;> rfl
  | succ fuel ih =>
    cases start with
    | none => rfl
    | some resting =>
      have allowed : allow order.unsequenced (crossing.untimed.book.order resting) =
          allow order (crossing.book.order resting) := blind order _
      unfold matchLevel
      rw [allowed]
      change (if crossing.remaining = 0 then _ else _) = _
      split
      · rfl
      · split
        · rw [matchOne_untimed crossing order timestamp]
          exact bind_image (fun matched => ih matched _) _
        · exact ih crossing _

omit blind in
/-- The next level alike. -/
theorem nextLevel_untimed :
    crossing.untimed.nextLevel order.unsequenced = crossing.nextLevel order := rfl

/-- The outer loop alike. -/
theorem cross_untimed (fuel : Nat) :
    cross allow order.unsequenced 0 fuel crossing.untimed =
      (cross allow order timestamp fuel crossing).map untimed := by
  induction fuel generalizing crossing with
  | zero =>
    unfold cross
    rw [nextLevel_untimed]
    cases crossing.nextLevel order <;> rfl
  | succ fuel ih =>
    unfold cross
    rw [nextLevel_untimed]
    cases crossing.nextLevel order with
    | none => rfl
    | some level =>
      have swept := matchLevel_untimed crossing order timestamp blind level orderCapacity
        (crossing.book.level level).orders.head
      exact (congrArg (Except.bind · _) swept).trans (bind_image (fun later => ih later) _)

omit blind in
/-- The remainder alike. -/
theorem settle_untimed :
    crossing.untimed.settle order.unsequenced 0 =
      (crossing.settle order timestamp).map fun settled => (settled.1.untimed, settled.2) := by
  have type : order.unsequenced.type = order.type := rfl
  unfold settle
  change (if crossing.remaining = 0 then _ else _) = _
  split
  · rfl
  · rw [type]
    cases order.type with
    | limit =>
      have rested := crossing.book.undated_insert order order.seqNum
      refine (congrArg (Except.bind · _) rested).trans (bind_image ?_ _)
      rintro ⟨slot, book⟩
      rfl
    | market =>
      have expired := TradeBuilder.buildExpiration_untimed crossing.ctx order crossing.execSeq
        crossing.remaining timestamp
      dsimp only [Except.map, untimed]
      rw [← expired]
    | stop => rfl

end Crossing

/-! ## Calls -/

namespace MatchingEngine

variable (engine : MatchingEngine) (ctx : ExecutionContext) (clock : ClockReadings)

/-- The beginning alike. -/
theorem beginSubmit_untimed (order : Order) (timestamp : UInt64) :
    engine.untimed.beginSubmit order.unsequenced ctx.untimed 0 =
      (engine.beginSubmit order ctx timestamp).untimed := by
  have acknowledged := TradeBuilder.buildAck_untimed ctx order engine.execSeq timestamp
  unfold beginSubmit Crossing.untimed
  dsimp only
  rw [← acknowledged]
  rfl

/-- A submission alike. -/
theorem submitOrderWith_untimed {allow : Order → LiveOrder → Bool}
    (blind : ∀ order node,
      allow (Order.unsequenced order) (LiveOrder.undated node) = allow order node)
    (fuel : Nat) (order : Order) :
    (engine.submitOrderWith allow fuel order ctx clock).map Submission.untimed =
      (engine.untimed.submitOrderWith allow fuel order.unsequenced ctx.untimed .stopped).map
        Submission.untimed := by
  have crossed := Crossing.cross_untimed (engine.beginSubmit order ctx clock.now) order clock.now
    blind fuel
  rw [← beginSubmit_untimed] at crossed
  unfold submitOrderWith
  simp only [ClockReadings.stopped]
  rw [crossed]
  apply bind_alike
  intro crossing
  rw [crossing.settle_untimed order clock.now]
  apply bind_alike
  rintro ⟨crossing, status⟩
  simp only [Except.map, Submission.untimed, untimed, MatchingStatistics.recordLatency_untimed]
  simp only [Crossing.untimed, undated_undated, untimed_untimed]
  rfl

/-- So under the rule shipped. -/
theorem submitOrder_untimed (order : Order) :
    (engine.submitOrder order ctx clock).map Submission.untimed =
      (engine.untimed.submitOrder order.unsequenced ctx.untimed .stopped).map
        Submission.untimed := by
  unfold submitOrder
  exact submitOrderWith_untimed engine ctx clock (by exact fun _ _ => rfl) levelCapacity order

/-- A cancellation alike. -/
theorem cancelOrder_untimed (orderId : OrderId) (clientId : ClientId) (accountId : AccountId)
    (symbolId : SymbolId) :
    (engine.cancelOrder orderId clientId accountId symbolId ctx clock).map
        (fun cancelled => (cancelled.1, cancelled.2.1.untimed, cancelled.2.2.untimed)) =
      (engine.untimed.cancelOrder orderId clientId accountId symbolId ctx.untimed .stopped).map
        fun cancelled => (cancelled.1, cancelled.2.1.untimed, cancelled.2.2.untimed) := by
  have found : engine.untimed.book.findOrder orderId = engine.book.findOrder orderId := rfl
  unfold cancelOrder
  rw [found]
  cases engine.book.findOrder orderId with
  | none =>
    simp only [Except.map, untimed, undated_undated,
      untimed_untimed]
    rfl
  | some order =>
    have reported : TradeBuilder.buildCancel ctx.untimed engine.execSeq
        (engine.untimed.book.order order) clientId accountId symbolId 0 = _ :=
      TradeBuilder.buildCancel_untimed ctx engine.execSeq (engine.book.order order) clientId
        accountId symbolId clock.now
    have cancelled : engine.untimed.book.cancel orderId = _ := engine.book.undated_cancel orderId
    have numbered : engine.untimed.execSeq = engine.execSeq := rfl
    simp only [ClockReadings.stopped, cancelled, numbered, reported]
    apply bind_alike
    rintro ⟨done, book⟩
    simp only [Except.map, untimed, MatchingStatistics.recordLatency_untimed,
      undated_undated, untimed_untimed]
    rfl

/-- A modification alike. -/
theorem modifyOrder_untimed (orderId : OrderId) (newQty : Quantity) :
    (engine.modifyOrder orderId newQty clock).map
        (fun modified => (modified.1, modified.2.untimed)) =
      (engine.untimed.modifyOrder orderId newQty .stopped).map
        fun modified => (modified.1, modified.2.untimed) := by
  have modified : engine.untimed.book.modifyQty orderId newQty 0 = _ :=
    engine.book.undated_modifyQty orderId newQty clock.now
  unfold modifyOrder
  simp only [ClockReadings.stopped, modified]
  apply bind_alike
  rintro ⟨done, book⟩
  simp only [Except.map, untimed, MatchingStatistics.recordLatency_untimed,
    undated_undated]
  rfl

/-- A reset alike. -/
theorem reset_untimed : engine.reset.map untimed = engine.untimed.reset.map untimed := by
  have cleared : engine.untimed.book.clear = _ := engine.book.undated_clear
  unfold reset
  rw [cleared]
  apply bind_alike
  intro book
  simp only [Except.map, untimed, undated_undated]

end MatchingEngine

/-! ## Runs -/

/-- What a call returns. -/
inductive EngineReturn where
  | submitted (result : MatchingResult)
  | cancelled (found : Bool)
  | modified (found : Bool)
  | reset
  deriving DecidableEq

/-- What a call returns, with the context that it leaves. -/
structure EngineOutcome where
  returned : EngineReturn
  ctx : ExecutionContext
  deriving DecidableEq

/-- An engine with the outcomes of its calls, the first one first. -/
structure ObservedEngine where
  engine : MatchingEngine
  outcomes : List EngineOutcome

namespace ObservedEngine

/-- A new engine before its first call. -/
def start (listener : Option (List BookEvent)) : ObservedEngine := ⟨.new listener, []⟩

/-- A call was made. -/
def after (observed : ObservedEngine) (returned : EngineReturn) (engine : MatchingEngine)
    (ctx : ExecutionContext) : ObservedEngine :=
  ⟨engine, observed.outcomes ++ [⟨returned, ctx⟩]⟩

/-- One call; `modify_order` leaves its context alone, and `reset` has none. -/
def step (observed : ObservedEngine) (input : EngineInput) : Except Fault ObservedEngine :=
  match input.call with
  | .submit order =>
    (observed.engine.submitOrder order input.ctx input.clock).map fun submission =>
      observed.after (.submitted submission.result) submission.engine submission.ctx
  | .cancel orderId clientId accountId symbolId =>
    (observed.engine.cancelOrder orderId clientId accountId symbolId input.ctx input.clock).map
      fun result => observed.after (.cancelled result.1) result.2.1 result.2.2
  | .modify orderId newQty =>
    (observed.engine.modifyOrder orderId newQty input.clock).map
      fun result => observed.after (.modified result.1) result.2 input.ctx
  | .reset => observed.engine.reset.map fun engine => observed.after .reset engine input.ctx

/-- What is observed, without what the clock decides. -/
def untimed (observed : ObservedEngine) : ObservedEngine :=
  ⟨observed.engine.untimed,
    observed.outcomes.map fun outcome => ⟨outcome.returned, outcome.ctx.untimed⟩⟩

variable (observed : ObservedEngine) (returned : EngineReturn) (engine : MatchingEngine)
  (ctx : ExecutionContext)

/-- An outcome alike. -/
theorem after_untimed :
    (observed.after returned engine ctx).untimed =
      observed.untimed.after returned engine.untimed ctx.untimed := by
  simp [after, untimed]

/-- Forgetting twice is forgetting. -/
theorem untimed_after :
    observed.untimed.untimed.after returned engine ctx =
      observed.untimed.after returned engine ctx := by
  simp [after, untimed, untimed_untimed]

end ObservedEngine

namespace EngineInput

/-- A call without the clock it reads and without timestamps in the context it is given. -/
def untimed (input : EngineInput) : EngineInput :=
  { input with ctx := input.ctx.untimed, clock := .stopped }

/-- A call whose order has no number. -/
def unsequenced (input : EngineInput) : EngineInput :=
  match input.call with
  | .submit order => { input with call := .submit order.unsequenced }
  | _ => input

end EngineInput

/-- One call does the same apart from what the clock decides. -/
theorem ObservedEngine.step_untimed (observed : ObservedEngine) (input : EngineInput) :
    (observed.step input).map untimed =
      (observed.untimed.step input.untimed.unsequenced).map untimed := by
  obtain ⟨call, ctx, clock⟩ := input
  cases call with
  | submit order =>
    apply map_alike
      (fun seen => observed.untimed.after (.submitted seen.1) seen.2.1 seen.2.2)
      (observed.engine.submitOrder_untimed ctx clock order)
    · exact fun submission => observed.after_untimed _ submission.engine submission.ctx
    · intro submission
      rw [after_untimed, untimed_after]
      rfl
  | cancel orderId clientId accountId symbolId =>
    apply map_alike
      (fun seen => observed.untimed.after (.cancelled seen.1) seen.2.1 seen.2.2)
      (observed.engine.cancelOrder_untimed ctx clock orderId clientId accountId symbolId)
    · exact fun result => observed.after_untimed _ result.2.1 result.2.2
    · intro result
      rw [after_untimed, untimed_after]
  | modify orderId newQty =>
    apply map_alike
      (fun seen => observed.untimed.after (.modified seen.1) seen.2 ctx.untimed)
      (observed.engine.modifyOrder_untimed clock orderId newQty)
    · exact fun result => observed.after_untimed _ result.2 ctx
    · intro result
      rw [after_untimed, untimed_after, ← ctx.untimed_untimed]
      rfl
  | reset =>
    apply map_alike (fun seen => observed.untimed.after .reset seen ctx.untimed)
      observed.engine.reset_untimed
    · exact fun engine => observed.after_untimed _ engine ctx
    · intro engine
      rw [after_untimed, untimed_after, ← ctx.untimed_untimed]
      rfl

/-- From any engine on, calls that differ in their clocks only do the same apart from what the clock
decides. -/
theorem ObservedEngine.runAll_untimed (observed : ObservedEngine)
    {inputs inputs' : List EngineInput}
    (same : inputs.map EngineInput.untimed = inputs'.map EngineInput.untimed) :
    (runAll step observed inputs).map untimed = (runAll step observed inputs').map untimed := by
  have forgotten (inputs : List EngineInput) :
      (runAll step observed inputs).map untimed =
        runAll (fun observed input => (observed.step input).map untimed) observed.untimed
          ((inputs.map EngineInput.untimed).map EngineInput.unsequenced) := by
    rw [List.map_map]
    exact runAll_map step_untimed _ inputs
  rw [forgotten, forgotten, same]

/-- Whatever calls an engine gets from its construction on, and whatever clock it reads, it returns
the same values or the same fault, the same trades and reports but for their timestamps, the same
statistics but for the latencies, and keeps the same book but for the priorities of its orders. The
contexts that calls are given may differ in timestamps as well, so a context may be passed on. -/
theorem outcomes_clockFree (listener : Option (List BookEvent)) {inputs inputs' : List EngineInput}
    (same : inputs.map EngineInput.untimed = inputs'.map EngineInput.untimed) :
    (runAll ObservedEngine.step (.start listener) inputs).map ObservedEngine.untimed =
      (runAll ObservedEngine.step (.start listener) inputs').map ObservedEngine.untimed :=
  ObservedEngine.runAll_untimed (.start listener) same

/-- Two bids of one price, of which the first is raised and so moves behind the second, and an
offer that takes the second and a part of the first. -/
def raisedFirstBid (clock : ClockReadings) : List EngineInput :=
  let bid : Order :=
    ⟨1, 100, 5, 1, 0, 0, 7, 70, 1, .buy, .limit, .gtc⟩
  [.submit bid, .submit { bid with orderId := 2, seqNum := 2 }, .modify 1 8,
    .submit { bid with orderId := 3, qty := 9, seqNum := 3, side := .sell },
    .cancel 1 7 70 1].map fun call => ⟨call, .empty, clock⟩

/-- Two clocks, one outcome. -/
theorem outcomes_clockFree_raised :
    ∃ early late,
      runAll ObservedEngine.step (.start none) (raisedFirstBid ⟨1, 2, 3⟩) = .ok early ∧
      runAll ObservedEngine.step (.start none) (raisedFirstBid ⟨50, 60, 900⟩) = .ok late ∧
      early.untimed = late.untimed ∧
      (early.outcomes.map EngineOutcome.returned)[3]? = some (.submitted ⟨.filled, 2⟩) ∧
      early.outcomes ≠ late.outcomes := by
  obtain ⟨early, ranEarly, filled, reported⟩ : ∃ early,
      runAll ObservedEngine.step (.start none) (raisedFirstBid ⟨1, 2, 3⟩) = .ok early ∧
        (early.outcomes.map EngineOutcome.returned)[3]? = some (.submitted ⟨.filled, 2⟩) ∧
        (early.outcomes.flatMap fun outcome => outcome.ctx.reports.map
          ExecutionReport.timestamp)[0]? = some 2 := Returns.exists (by decide +kernel)
  obtain ⟨late, ranLate, reported'⟩ : ∃ late,
      runAll ObservedEngine.step (.start none) (raisedFirstBid ⟨50, 60, 900⟩) = .ok late ∧
        (late.outcomes.flatMap fun outcome => outcome.ctx.reports.map
          ExecutionReport.timestamp)[0]? = some 60 := Returns.exists (by decide +kernel)
  have same := @outcomes_clockFree none (raisedFirstBid ⟨1, 2, 3⟩) (raisedFirstBid ⟨50, 60, 900⟩)
    (by decide)
  rw [ranEarly, ranLate] at same
  refine ⟨early, late, ranEarly, ranLate, Except.ok.inj same, filled, ?_⟩
  intro equal
  rw [equal, reported'] at reported
  exact absurd reported (by decide)

end FluxTrade
